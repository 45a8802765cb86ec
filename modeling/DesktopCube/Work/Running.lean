import DesktopCube.Library.Worker
import DesktopCube.Work.Drain

namespace DesktopCube.Work
open Transition CMemory BoundedQueue Worker

/-- `BtAppTask` executes the operations of a callback before it frees the parameter. -/
structure Running (Op State : Type) where
  traffic : Traffic
  ops : List Op
  state : State
  aborted : Bool

inductive RunningLabel (Choice : Type) where
  | traffic (label : TrafficLabel)
  | execute (choice : Choice)

variable {Message Op Choice State : Type}

namespace Running

/-- The callback of a received message begins with what it sees. -/
def begin (task : Task Message Op Choice State) (decode : Seen → Message) (running : Running Op State)
    (traffic : Traffic) : Running Op State :=
  match traffic.core.handling with
  | some msg => { running with traffic := traffic, ops := task.handler (decode (msg.seen traffic.core.heap)) }
  | none => { running with traffic := traffic }

def execute (task : Task Message Op Choice State) (running : Running Op State) (choice : Choice) :
    Option (Running Op State) :=
  match running.ops with
  | [] => none
  | op :: rest =>
      match task.execute running.state op choice with
      | .next state => some { running with ops := rest, state := state }
      | .leave state => some { running with ops := [], state := state }
      | .abort => some { running with aborted := true }

/-- The other tasks call and send while a callback runs. -/
def step (task : Task Message Op Choice State) (decode : Seen → Message) (running : Running Op State)
    (label : RunningLabel Choice) : Option (Running Op State) :=
  if running.aborted then none
  else
    match label with
    | .traffic .receive => (running.traffic.step .receive).map (running.begin task decode)
    | .traffic .handle =>
        if running.ops.isEmpty then
          (running.traffic.step .handle).map fun traffic => { running with traffic := traffic }
        else none
    | .traffic label => (running.traffic.step label).map fun traffic => { running with traffic := traffic }
    | .execute choice => running.execute task choice

def record (running : Running Op State) (label : RunningLabel Choice) (next : Running Op State)
    (journal : Journal) : Journal :=
  match label with
  | .traffic label => running.traffic.record label next.traffic journal
  | .execute _ => journal

end Running

/-- The tasks of the work queue and the handlers of one of them with a journal. -/
def runningMachine (task : Task Message Op Choice State) (decode : Seen → Message) (memory : Memory) :
    Machine (Running Op State × Journal) (RunningLabel Choice) :=
  Machine.recorded ⟨⟨Traffic.start memory, [], task.initial, false⟩, Running.step task decode⟩ Journal.empty
    Running.record

/-- The worker has the values of the messages in the place of their blocks. -/
def workerView (decode : Seen → Message) (pair : Running Op State × Journal) : Progress Message Op State 10 where
  reported := pair.2.returned.map fun call => decode call.1
  queue := pair.1.traffic.core.queue.map fun msg => decode (msg.seen pair.1.traffic.core.heap)
  handled := (pair.2.invoked ++ pair.1.traffic.core.handling.toList.map (Msg.seen pair.1.traffic.core.heap)).map decode
  ops := pair.1.ops
  state := pair.1.state
  aborted := pair.1.aborted

/-- A call that makes no message is a report that is lost. -/
def refused (decode : Seen → Message) (seen : Seen) (mallocOk : Bool) :
    Option (WorkCall × Heap Content) → Option (Worker.Label Message Choice)
  | none => none
  | some (call, heap) =>
      match call.prepare mallocOk heap with
      | none => some (.report (decode seen) false)
      | some _ => none

/-- A call is reported when it returns. -/
def asWorker (decode : Seen → Message) (pair : Running Op State × Journal) :
    RunningLabel Choice → Option (Worker.Label Message Choice)
  | .traffic (.send draft) => pair.1.traffic.drafts[draft]?.map fun msg =>
      .report (decode (msg.seen pair.1.traffic.core.heap)) true
  | .traffic (.dispatch arguments mallocOk) =>
      refused decode (arguments.seen pair.1.traffic.memory) mallocOk
        (pair.1.traffic.entry (.dispatch arguments mallocOk))
  | .traffic (.rcCtCb report mallocOk) =>
      refused decode (report.seen pair.1.traffic.memory) mallocOk (pair.1.traffic.entry (.rcCtCb report mallocOk))
  | .traffic .receive => some .receive
  | .traffic .handle | .traffic (.store _ _) => none
  | .execute choice => some (.execute choice)

/-- A callback runs only while its message is handled. -/
structure Attended (running : Running Op State) (journal : Journal) : Prop where
  accounted : Accounted running.traffic journal
  attended : running.traffic.core.handling = none → running.ops = []

namespace Running

variable {task : Task Message Op Choice State} {decode : Seen → Message} {running next : Running Op State}

/-- The task receives, ends a message or executes an operation, or another task moves. -/
theorem step_cases {label : RunningLabel Choice} (taken : running.step task decode label = some next) :
    running.aborted = false ∧
      ((∃ traffic, label = .traffic .receive ∧ running.traffic.step .receive = some traffic ∧
          next = running.begin task decode traffic) ∨
        (∃ traffic, label = .traffic .handle ∧ running.ops = [] ∧ running.traffic.step .handle = some traffic ∧
          next = { running with traffic := traffic }) ∨
        (∃ other traffic, label = .traffic other ∧ other.isTask = false ∧
          running.traffic.step other = some traffic ∧ next = { running with traffic := traffic }) ∨
        ∃ choice, label = .execute choice ∧ running.execute task choice = some next) := by
  unfold step at taken
  cases aborted : running.aborted with
  | true => simp [aborted] at taken
  | false =>
      simp only [aborted, Bool.false_eq_true, if_false] at taken
      refine ⟨rfl, ?_⟩
      cases label with
      | execute choice => exact .inr (.inr (.inr ⟨choice, rfl, taken⟩))
      | traffic label =>
          cases label with
          | receive =>
              obtain ⟨traffic, moved, rfl⟩ := Option.map_eq_some_iff.mp taken
              exact .inl ⟨traffic, rfl, moved, rfl⟩
          | handle =>
              simp only at taken
              split at taken
              · rename_i ended
                obtain ⟨traffic, moved, rfl⟩ := Option.map_eq_some_iff.mp taken
                exact .inr (.inl ⟨traffic, rfl, List.isEmpty_iff.mp ended, moved, rfl⟩)
              · cases taken
          | store address byte =>
              obtain ⟨traffic, moved, rfl⟩ := Option.map_eq_some_iff.mp taken
              exact .inr (.inr (.inl ⟨_, traffic, rfl, rfl, moved, rfl⟩))
          | dispatch arguments mallocOk =>
              obtain ⟨traffic, moved, rfl⟩ := Option.map_eq_some_iff.mp taken
              exact .inr (.inr (.inl ⟨_, traffic, rfl, rfl, moved, rfl⟩))
          | rcCtCb report mallocOk =>
              obtain ⟨traffic, moved, rfl⟩ := Option.map_eq_some_iff.mp taken
              exact .inr (.inr (.inl ⟨_, traffic, rfl, rfl, moved, rfl⟩))
          | send draft =>
              obtain ⟨traffic, moved, rfl⟩ := Option.map_eq_some_iff.mp taken
              exact .inr (.inr (.inl ⟨_, traffic, rfl, rfl, moved, rfl⟩))

theorem execute_traffic {choice : Choice} (taken : running.execute task choice = some next) :
    next.traffic = running.traffic := by
  unfold execute at taken
  split at taken
  · cases taken
  · split at taken <;> cases taken <;> rfl

end Running

namespace Attended

variable {decode : Seen → Message} {running next : Running Op State} {journal after : Journal}

/-- The worker has handled or queues the accepted calls. -/
theorem view_accepted (decode : Seen → Message) (accounted : Accounted running.traffic journal) :
    (workerView decode (running, journal)).handled ++ (workerView decode (running, journal)).queue.items =
      journal.accepted.map decode := by
  have order := congrArg (List.map decode) accounted.order
  rw [← order, Core.messages]
  simp only [workerView, Queue.map, List.map_append, List.map_map, List.append_assoc, Function.comp_def]

/-- As many accepted calls are handled as the task has received. -/
theorem view_split (decode : Seen → Message) (accounted : Accounted running.traffic journal) :
    (workerView decode (running, journal)).handled = (journal.accepted.map decode).take
        (journal.invoked.length + running.traffic.core.handling.toList.length) ∧
      (workerView decode (running, journal)).queue.items = (journal.accepted.map decode).drop
        (journal.invoked.length + running.traffic.core.handling.toList.length) := by
  have length : (workerView decode (running, journal)).handled.length =
      journal.invoked.length + running.traffic.core.handling.toList.length := by
    simp only [workerView, List.length_map, List.length_append]
  rw [← view_accepted decode accounted, ← length, List.take_left, List.drop_left]
  exact ⟨rfl, rfl⟩

/-- A step that accepts nothing and receives nothing leaves the handled messages and the queue. -/
theorem view_fixed (decode : Seen → Message) (next : Running Op State)
    (before : Accounted running.traffic journal) (later : Accounted next.traffic after)
    (accepted : after.accepted = journal.accepted)
    (count : after.invoked.length + next.traffic.core.handling.toList.length =
      journal.invoked.length + running.traffic.core.handling.toList.length) :
    workerView decode (next, after) = { workerView decode (running, journal) with
      reported := after.returned.map fun call => decode call.1
      ops := next.ops
      state := next.state
      aborted := next.aborted } := by
  obtain ⟨handled, queue⟩ := view_split decode before
  obtain ⟨handledAfter, queueAfter⟩ := view_split decode later
  rw [accepted, count] at handledAfter queueAfter
  have sameHandled := handledAfter.trans handled.symm
  have sameQueue := Queue.eq_of_items (queueAfter.trans queue.symm)
  simp only [workerView] at sameHandled sameQueue ⊢
  rw [sameHandled, sameQueue]

/-- A sent draft is a report that a full queue loses. -/
theorem send_view {draft : Nat} {msg : Msg} (before : Accounted running.traffic journal)
    (drafted : running.traffic.drafts[draft]? = some msg) :
    workerView decode ({ running with traffic := { running.traffic with
        core := (btAppSendMsg (some msg) running.traffic.core).2
        drafts := running.traffic.drafts.eraseIdx draft } },
      journal.send draft (btAppSendMsg (some msg) running.traffic.core).1) =
      (workerView decode (running, journal)).report (decode (msg.seen running.traffic.core.heap)) true := by
  have promise : journal.promised[draft]? = some (msg.seen running.traffic.core.heap) := by
    rw [← before.promised, List.getElem?_map, drafted, Option.map_some]
  simp only [Journal.send, promise]
  have sent := Queue.map_send (fun msg => decode (Msg.seen running.traffic.core.heap msg))
    running.traffic.core.queue msg
  simp only [Progress.report, workerView, if_true, sent]
  cases taken : running.traffic.core.queue.send msg with
  | none => simp [btAppSendMsg, taken]
  | some queue => simp [btAppSendMsg, taken]

/-- The received message is the first one of the queue and starts its callback. -/
theorem receive_view {task : Task Message Op Choice State} {traffic : Traffic} (attended : Attended running journal)
    (taken : running.traffic.step .receive = some traffic) :
    (workerView decode (running, journal)).receive task =
      some (workerView decode (running.begin task decode traffic, journal)) := by
  obtain ⟨msg, queue, idle, first, rfl⟩ := Traffic.receive_cases taken
  have waiting := attended.attended idle
  have mapped := Queue.map_receive (fun msg => decode (Msg.seen running.traffic.core.heap msg))
    running.traffic.core.queue
  rw [first, Option.map_some] at mapped
  simp only [Progress.receive, workerView, waiting, mapped, idle, Running.begin, Option.toList_none, List.map_nil,
    List.append_nil, Option.toList_some, List.map_cons, List.map_append]

theorem execute_view {task : Task Message Op Choice State} {choice : Choice}
    (taken : running.execute task choice = some next) :
    (workerView decode (running, journal)).execute task choice = some (workerView decode (next, journal)) := by
  unfold Running.execute at taken
  unfold Progress.execute
  cases ops : running.ops with
  | nil => simp [ops] at taken
  | cons op rest =>
      simp only [ops] at taken
      simp only [workerView, ops]
      cases executed : task.execute running.state op choice <;> simp only [executed] at taken ⊢ <;> cases taken <;>
        rfl

/-- The callback has ended before its parameter is freed. -/
theorem handle_view {traffic : Traffic} (attended : Attended running journal)
    (later : Accounted traffic (running.traffic.record .handle traffic journal))
    (taken : running.traffic.step .handle = some traffic) :
    workerView decode ({ running with traffic := traffic }, running.traffic.record .handle traffic journal) =
      workerView decode (running, journal) := by
  obtain ⟨msg, handling, idle⟩ := Traffic.handle_cases taken
  have called := attended.accounted.holding.called msg (by simp [Core.messages, handling])
  have invoked : running.traffic.record .handle traffic journal =
      { journal with invoked := journal.invoked ++ [msg.seen running.traffic.core.heap] } := by
    simp only [Traffic.record, handling, journal.invoke_called called]
  rw [invoked] at later ⊢
  rw [view_fixed decode { running with traffic := traffic } attended.accounted later rfl]
  · rfl
  · simp [idle, handling]

theorem step {task : Task Message Op Choice State} {label : RunningLabel Choice}
    (attended : Attended running journal) (taken : running.step task decode label = some next) :
    Attended next (running.record label next journal) := by
  rcases Running.step_cases taken with ⟨_, ⟨traffic, rfl, moved, rfl⟩ | ⟨traffic, rfl, ended, moved, rfl⟩ |
    ⟨other, traffic, rfl, caller, moved, rfl⟩ | ⟨choice, rfl, moved⟩⟩
  · have accounted := attended.accounted.step moved
    obtain ⟨msg, queue, _, _, received⟩ := Traffic.receive_cases moved
    have handling : traffic.core.handling = some msg := by rw [received]
    have same : (running.begin task decode traffic).traffic = traffic := by
      rw [Running.begin, handling]
    refine ⟨?_, ?_⟩
    · rw [Running.record, same]
      exact accounted
    · rw [same, handling]
      intro idle
      cases idle
  · exact ⟨attended.accounted.step moved, fun _ => ended⟩
  · refine ⟨attended.accounted.step moved, fun idle => attended.attended ?_⟩
    rw [← Traffic.step_handling caller moved]
    exact idle
  · have same : next.traffic = running.traffic := Running.execute_traffic moved
    refine ⟨same ▸ attended.accounted, fun idle => ?_⟩
    have waiting := attended.attended (same ▸ idle)
    simp [Running.execute, waiting] at moved

section Simulation

variable {task : Task Message Op Choice State} {permits : List Message → Message → Bool}

/-- The worker takes every permitted report. -/
theorem reports (running_ : running.aborted = false) {message : Message} (allocated : Bool)
    (allowed : permits (workerView decode (running, journal)).reported message = true) :
    (Worker.machine task permits 10).step (workerView decode (running, journal)) (.report message allocated) =
      some ((workerView decode (running, journal)).report message allocated) := by
  have runs : (workerView decode (running, journal)).aborted = false := running_
  simp only [Worker.machine, runs, Bool.false_eq_true, if_false, allowed, if_true]

/-- A call makes a draft that nobody sees or a report that is lost. -/
theorem enter_simulates (seen : Seen) (mallocOk : Bool) (entry : Option (WorkCall × Heap Content))
    (attended : Attended running journal) (running_ : running.aborted = false)
    (later : Accounted (running.traffic.enter mallocOk entry) (journal.enter seen mallocOk entry))
    (permitted : ∀ other, (refused decode seen mallocOk entry : Option (Worker.Label Message Choice)) = some other →
      (workerView decode (running, journal)).Permits permits other) :
    match (refused decode seen mallocOk entry : Option (Worker.Label Message Choice)) with
    | none => workerView decode ({ running with traffic := running.traffic.enter mallocOk entry },
        journal.enter seen mallocOk entry) = workerView decode (running, journal)
    | some other => (Worker.machine task permits 10).step (workerView decode (running, journal)) other =
        some (workerView decode ({ running with traffic := running.traffic.enter mallocOk entry },
          journal.enter seen mallocOk entry)) := by
  cases entry with
  | none => rfl
  | some pair =>
      obtain ⟨call, heap⟩ := pair
      cases prepared : call.prepare mallocOk heap with
      | none =>
          simp only [refused, prepared] at permitted ⊢
          simp only [Traffic.enter, Journal.enter, prepared] at later ⊢
          rw [reports running_ false (permitted _ rfl), view_fixed decode { running with traffic := _ }
            attended.accounted later (by simp [Journal.accepted]) rfl]
          simp [Progress.report, workerView]
      | some message =>
          simp only [refused, prepared]
          simp only [Traffic.enter, Journal.enter, prepared] at later ⊢
          rw [view_fixed decode { running with traffic := _ } attended.accounted later rfl rfl]
          rfl

/-- A step of the tasks is one of the worker, or nothing that the worker sees. -/
theorem simulates {label : RunningLabel Choice} (attended : Attended running journal)
    (taken : running.step task decode label = some next)
    (permitted : ∀ other, asWorker decode (running, journal) label = some other →
      (workerView decode (running, journal)).Permits permits other) :
    match asWorker decode (running, journal) label with
    | none => workerView decode (next, running.record label next journal) = workerView decode (running, journal)
    | some other => (Worker.machine task permits 10).step (workerView decode (running, journal)) other =
        some (workerView decode (next, running.record label next journal)) := by
  have later := attended.step taken
  obtain ⟨running_, moves⟩ := Running.step_cases taken
  have runs : (workerView decode (running, journal)).aborted = false := running_
  rcases moves with ⟨traffic, rfl, moved, rfl⟩ | ⟨traffic, rfl, _, moved, rfl⟩ |
    ⟨other, traffic, rfl, caller, moved, rfl⟩ | ⟨choice, rfl, moved⟩
  · simp only [asWorker, Worker.machine, runs, Bool.false_eq_true, if_false]
    exact attended.receive_view moved
  · exact attended.handle_view later.accounted moved
  · unfold Traffic.step at moved
    split at moved
    · cases moved
    · cases other with
      | store address byte =>
          cases moved
          rfl
      | dispatch arguments mallocOk =>
          cases moved
          exact enter_simulates (arguments.seen running.traffic.memory) mallocOk
            (running.traffic.entry (.dispatch arguments mallocOk)) attended running_ later.accounted permitted
      | rcCtCb report mallocOk =>
          cases moved
          exact enter_simulates (report.seen running.traffic.memory) mallocOk
            (running.traffic.entry (.rcCtCb report mallocOk)) attended running_ later.accounted permitted
      | send draft =>
          obtain ⟨msg, drafted, rfl⟩ := Option.map_eq_some_iff.mp moved
          have viewed : asWorker decode (running, journal) (.traffic (.send draft) : RunningLabel Choice) =
              some (.report (decode (msg.seen running.traffic.core.heap)) true) := by
            simp only [asWorker, drafted, Option.map_some]
          simp only [Running.record, Traffic.record, viewed, drafted]
          rw [send_view attended.accounted drafted]
          exact reports running_ true (permitted _ viewed)
      | receive | handle => cases caller
  · simp only [asWorker, Worker.machine, runs, Bool.false_eq_true, if_false]
    exact execute_view moved

end Simulation

theorem reachable {task : Task Message Op Choice State} {memory : Memory} {pair : Running Op State × Journal}
    {allowed : Running Op State × Journal → RunningLabel Choice → Prop}
    (reached : (runningMachine task decode memory).Reaches allowed (runningMachine task decode memory).initial pair) :
    Attended pair.1 pair.2 :=
  reached.recorded_invariant Attended ⟨Accounted.start memory, fun _ => rfl⟩
    fun _ _ _ _ attended _ taken => attended.step taken

/-- Between two messages the worker has handled the invoked calls. -/
theorem idle_view (attended : Attended running journal) (idle : running.traffic.core.handling = none) :
    (workerView decode (running, journal)).ops = [] ∧
      (workerView decode (running, journal)).handled = journal.invoked.map decode := by
  refine ⟨attended.attended idle, ?_⟩
  simp only [workerView, idle, Option.toList_none, List.map_nil, List.append_nil]

end Attended

/-- The worker may take what the step is to it. -/
def Admits (decode : Seen → Message) (permits : List Message → Message → Bool)
    (condition : Progress Message Op State 10 → Worker.Label Message Choice → Prop)
    (pair : Running Op State × Journal) (label : RunningLabel Choice) : Prop :=
  ∀ other ∈ asWorker decode pair label,
    condition (workerView decode pair) other ∧ (workerView decode pair).Permits permits other

instance (decode : Seen → Message) (permits : List Message → Message → Bool)
    (condition : Progress Message Op State 10 → Worker.Label Message Choice → Prop)
    [∀ p other, Decidable (condition p other)] (pair : Running Op State × Journal) (label : RunningLabel Choice) :
    Decidable (Admits decode permits condition pair label) :=
  inferInstanceAs (Decidable (∀ other ∈ asWorker decode pair label, _))

/-- The work queue with its heap and its calling tasks refines the worker on values. -/
theorem running_refines_worker {task : Task Message Op Choice State} {decode : Seen → Message}
    {permits : List Message → Message → Bool} {memory : Memory}
    {condition : Progress Message Op State 10 → Worker.Label Message Choice → Prop}
    {pair : Running Op State × Journal}
    (reached : (runningMachine task decode memory).Reaches (Admits decode permits condition)
      (runningMachine task decode memory).initial pair) :
    (Worker.machine task permits 10).Reaches condition (Worker.machine task permits 10).initial
      (workerView decode pair) := by
  apply reached.simulates (workerView decode) (asWorker decode)
  rintro ⟨running, journal⟩ label ⟨next, after⟩ before admits taken
  obtain ⟨moved, recorded⟩ := Machine.recorded_step_iff.mp taken
  have simulated := (Attended.reachable before).simulates moved fun other viewed => (admits other viewed).2
  simp only at recorded
  subst recorded
  cases viewed : asWorker decode (running, journal) label with
  | none =>
      rw [viewed] at simulated
      exact simulated
  | some other =>
      rw [viewed] at simulated
      exact ⟨(admits other viewed).1, simulated⟩

end DesktopCube.Work
