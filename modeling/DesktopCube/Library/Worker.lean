import DesktopCube.Library.BoundedQueue
import DesktopCube.Library.Machine
import DesktopCube.Library.Program

namespace Worker
open Transition BoundedQueue Program

/-- A worker runs one handler after another on its state. -/
structure Task (Message Op Choice State : Type) where
  handler : Message → List Op
  execute : State → Op → Choice → Outcome State
  initial : State

/-- The reported and the handled messages are records that no step reads back. -/
structure Progress (Message Op State : Type) (capacity : Nat) where
  reported : List Message
  queue : Queue Message capacity
  handled : List Message
  ops : List Op
  state : State
  aborted : Bool

/-- A report is lost without memory for its message. -/
inductive Label (Message Choice : Type) where
  | report (message : Message) (allocated : Bool)
  | receive
  | execute (choice : Choice)
  deriving DecidableEq, Repr

variable {Message Op Choice State : Type} {capacity : Nat}

namespace Progress

/-- A full queue refuses the message and the reporter does not notice. -/
def report (p : Progress Message Op State capacity) (message : Message) (allocated : Bool) :
    Progress Message Op State capacity :=
  { p with
    reported := p.reported ++ [message]
    queue := if allocated then (p.queue.send message).getD p.queue else p.queue }

/-- The worker takes a message when its last handler has returned. -/
def receive (p : Progress Message Op State capacity) (task : Task Message Op Choice State) :
    Option (Progress Message Op State capacity) :=
  match p.ops, p.queue.receive with
  | [], some (message, queue) =>
      some { p with queue := queue, handled := p.handled ++ [message], ops := task.handler message }
  | _, _ => none

def execute (p : Progress Message Op State capacity) (task : Task Message Op Choice State)
    (choice : Choice) : Option (Progress Message Op State capacity) :=
  match p.ops with
  | [] => none
  | op :: rest =>
      match task.execute p.state op choice with
      | .next state => some { p with ops := rest, state := state }
      | .leave state => some { p with ops := [], state := state }
      | .abort => some { p with aborted := true }

/-- The queue takes every report. -/
def Delivered (p : Progress Message Op State capacity) : Label Message Choice → Prop
  | .report _ allocated => allocated = true ∧ p.queue.HasRoom
  | .receive | .execute _ => True

instance (p : Progress Message Op State capacity) (label : Label Message Choice) :
    Decidable (p.Delivered label) :=
  match label with
  | .report _ allocated => inferInstanceAs (Decidable (allocated = true ∧ p.queue.HasRoom))
  | .receive | .execute _ => isTrue trivial

/-- The message of a report is permitted. -/
def Permits (permits : List Message → Message → Bool) (p : Progress Message Op State capacity) :
    Label Message Choice → Prop
  | .report message _ => permits p.reported message = true
  | .receive | .execute _ => True

instance (permits : List Message → Message → Bool) (p : Progress Message Op State capacity)
    (label : Label Message Choice) : Decidable (p.Permits permits label) :=
  match label with
  | .report message _ => inferInstanceAs (Decidable (permits p.reported message = true))
  | .receive | .execute _ => isTrue trivial

end Progress

/-- The reporters report a message when it is permitted after the earlier reports. -/
def machine (task : Task Message Op Choice State) (permits : List Message → Message → Bool)
    (capacity : Nat) : Machine (Progress Message Op State capacity) (Label Message Choice) where
  initial := ⟨[], Queue.empty, [], [], task.initial, false⟩
  step p label :=
    if p.aborted then none
    else
      match label with
      | .report message allocated =>
          if permits p.reported message then some (p.report message allocated) else none
      | .receive => p.receive task
      | .execute choice => p.execute task choice

/-- A message of a longer history is its last one or stands in the shorter history. -/
theorem split_snoc {history before after : List Message} {message first : Message}
    (split : history ++ [message] = before ++ first :: after) :
    before = history ∧ first = message ∨ ∃ most, history = before ++ first :: most := by
  rcases List.eq_nil_or_concat after with rfl | ⟨most, last, rfl⟩
  · obtain ⟨same, last⟩ := List.append_inj' split rfl
    exact .inl ⟨same.symm, (List.cons.inj last).1.symm⟩
  · rw [List.concat_eq_append, ← List.cons_append, ← List.append_assoc] at split
    exact .inr ⟨most, (List.append_inj' split rfl).1⟩

/-- Each message is permitted after the messages before it. -/
def Permitted (permits : List Message → Message → Bool) (history : List Message) : Prop :=
  ∀ before message after, history = before ++ message :: after → permits before message = true

namespace Permitted

variable {permits : List Message → Message → Bool} {history : List Message} {message : Message}

theorem nil : Permitted permits [] := by
  intro before message after split
  exact absurd split.symm (by simp)

theorem snoc (permitted : Permitted permits history) (next : permits history message = true) :
    Permitted permits (history ++ [message]) := by
  intro before first after split
  rcases split_snoc split with ⟨rfl, rfl⟩ | ⟨most, earlier⟩
  · exact next
  · exact permitted before first most earlier

/-- The messages of a split history are permitted one after the other. -/
theorem at_split {rest : List Message} (permitted : Permitted permits (history ++ message :: rest)) :
    permits history message = true :=
  permitted history message rest rfl

theorem of_append {rest : List Message} (permitted : Permitted permits (history ++ rest)) :
    Permitted permits history := by
  intro before first after split
  apply permitted before first (after ++ rest)
  rw [split, List.append_assoc, List.cons_append]

end Permitted

section Latest

variable {Value : Type}

/-- The last of the values that some messages carry. -/
def latest (history : List Message) (valueOf : Message → Option Value) (initial : Value) : Value :=
  (history.filterMap valueOf).getLast?.getD initial

theorem latest_snoc (history : List Message) (valueOf : Message → Option Value) (initial : Value)
    (message : Message) :
    latest (history ++ [message]) valueOf initial = (valueOf message).getD (latest history valueOf initial) := by
  unfold latest
  rw [List.filterMap_append]
  cases carried : valueOf message with
  | none => simp [carried]
  | some value => simp [carried]

end Latest

namespace Progress

variable {task : Task Message Op Choice State} {p next : Progress Message Op State capacity}

/-- The worker takes the oldest message and starts its handler. -/
theorem receive_cases (taken : p.receive task = some next) :
    ∃ message queue, p.ops = [] ∧ p.queue.items = message :: queue.items ∧
      next = { p with queue := queue, handled := p.handled ++ [message], ops := task.handler message } := by
  unfold receive at taken
  split at taken
  · rename_i message queue idle received
    cases taken
    exact ⟨message, queue, idle, Queue.receive_some received, rfl⟩
  · cases taken

/-- An operation changes only the state and leaves the rest of the program. -/
theorem execute_keeps {always : List Op → State → Prop} {post : State → Prop} {choice : Choice}
    (keeps : Keeps task.execute always post p.ops p.state) (taken : p.execute task choice = some next) :
    next = { p with ops := next.ops, state := next.state } ∧
      Keeps task.execute always post next.ops next.state := by
  unfold execute at taken
  cases ops : p.ops with
  | nil => simp [ops] at taken
  | cons op rest =>
      rw [ops] at keeps
      simp only [ops] at taken
      cases executed : task.execute p.state op choice with
      | next state =>
          simp only [executed] at taken
          cases taken
          exact ⟨rfl, keeps.next executed⟩
      | leave state =>
          simp only [executed] at taken
          cases taken
          exact ⟨rfl, keeps.leave executed⟩
      | abort => exact absurd executed keeps.not_abort

end Progress

section Follows

variable (task : Task Message Op Choice State) (permits : List Message → Message → Bool)
  (always : List Op → State → Prop) (spec : List Message → State → Prop)

/-- The worker has lost no message and its state meets the description of the handled ones. -/
structure Follows (p : Progress Message Op State capacity) : Prop where
  running : p.aborted = false
  permitted : Permitted permits p.reported
  complete : p.reported = p.handled ++ p.queue.items
  keeps : Keeps task.execute always (spec p.handled) p.ops p.state

/-- The handler of a permitted message leads from one description to the next. -/
def Handles : Prop :=
  ∀ history message state, Permitted permits (history ++ [message]) → always [] state →
    spec history state →
    Keeps task.execute always (spec (history ++ [message])) (task.handler message) state

variable {task permits always spec} {p next : Progress Message Op State capacity}

namespace Follows

theorem report {message : Message} (follows : Follows task permits always spec p)
    (allowed : permits p.reported message = true) (room : p.queue.HasRoom) :
    Follows task permits always spec (p.report message true) := by
  obtain ⟨queue, sent, items⟩ := Queue.send_of_room room message
  refine ⟨follows.running, follows.permitted.snoc allowed, ?_, follows.keeps⟩
  show p.reported ++ [message] = p.handled ++ ((p.queue.send message).getD p.queue).items
  rw [sent, Option.getD_some, items, follows.complete, List.append_assoc]

theorem receive (handles : Handles task permits always spec) (follows : Follows task permits always spec p)
    (taken : p.receive task = some next) : Follows task permits always spec next := by
  obtain ⟨message, queue, idle, items, rfl⟩ := Progress.receive_cases taken
  have complete := follows.complete
  rw [items, List.append_cons] at complete
  have kept := follows.keeps
  rw [idle] at kept
  exact ⟨follows.running, follows.permitted, complete,
    handles _ _ _ (complete ▸ follows.permitted).of_append kept.1 kept.2⟩

theorem execute {choice : Choice} (follows : Follows task permits always spec p)
    (taken : p.execute task choice = some next) : Follows task permits always spec next := by
  obtain ⟨same, keeps⟩ := Progress.execute_keeps follows.keeps taken
  rw [same]
  exact ⟨follows.running, follows.permitted, follows.complete, keeps⟩

theorem step {label : Label Message Choice} (handles : Handles task permits always spec)
    (follows : Follows task permits always spec p) (delivered : p.Delivered label)
    (taken : (machine task permits capacity).step p label = some next) :
    Follows task permits always spec next := by
  simp only [machine, follows.running, Bool.false_eq_true, if_false] at taken
  cases label with
  | report message allocated =>
      obtain ⟨rfl, room⟩ := delivered
      simp only at taken
      split at taken
      · rename_i allowed
        cases taken
        exact follows.report allowed room
      · cases taken
  | receive => exact follows.receive handles taken
  | execute choice => exact follows.execute taken

end Follows

/-- A worker that loses no message follows its description throughout a run. -/
theorem follows_of_reaches (handles : Handles task permits always spec)
    (atStart : always [] task.initial) (described : spec [] task.initial)
    (reached : (machine task permits capacity).Reaches Progress.Delivered
      (machine task permits capacity).initial p) :
    Follows task permits always spec p :=
  reached.invariant (Follows task permits always spec)
    ⟨rfl, Permitted.nil, rfl, atStart, described⟩
    fun _ _ _ follows delivered taken => follows.step handles delivered taken

/-- The state meets the description between two handlers. -/
theorem Follows.idle (follows : Follows task permits always spec p) (idle : p.ops = []) :
    spec p.handled p.state := by
  have kept := follows.keeps
  rw [idle] at kept
  exact kept.2

end Follows

section Serves

variable (task : Task Message Op Choice State) (always : List Op → State → Prop)
  (spec : List Message → State → Prop)

/-- The worker handles some of the reports and its state meets their description. -/
structure Serves (p : Progress Message Op State capacity) : Prop where
  running : p.aborted = false
  keeps : Keeps task.execute always (spec p.handled) p.ops p.state

/-- The handler of any message leads from one description to the next. -/
def HandlesAll : Prop :=
  ∀ history message state, always [] state → spec history state →
    Keeps task.execute always (spec (history ++ [message])) (task.handler message) state

variable {task always spec} {permits : List Message → Message → Bool} {p next : Progress Message Op State capacity}

theorem Serves.step {label : Label Message Choice} (handles : HandlesAll task always spec)
    (serves : Serves task always spec p) (taken : (machine task permits capacity).step p label = some next) :
    Serves task always spec next := by
  simp only [machine, serves.running, Bool.false_eq_true, if_false] at taken
  cases label with
  | report message allocated =>
      simp only at taken
      split at taken <;> cases taken
      exact ⟨serves.running, serves.keeps⟩
  | receive =>
      obtain ⟨message, queue, idle, items, rfl⟩ := Progress.receive_cases taken
      have kept := serves.keeps
      rw [idle] at kept
      exact ⟨serves.running, handles _ _ _ kept.1 kept.2⟩
  | execute choice =>
      obtain ⟨same, keeps⟩ := Progress.execute_keeps serves.keeps taken
      rw [same]
      exact ⟨serves.running, keeps⟩

/-- A worker that may lose messages meets the description of the handled ones throughout a run. -/
theorem serves_of_reachable (handles : HandlesAll task always spec) (atStart : always [] task.initial)
    (described : spec [] task.initial) (reached : (machine task permits capacity).Reachable p) :
    Serves task always spec p :=
  reached.invariant (Serves task always spec) ⟨rfl, atStart, described⟩
    fun _ _ _ serves _ taken => serves.step handles taken

end Serves

end Worker
