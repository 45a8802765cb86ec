import DesktopCube.Library.Progress
import DesktopCube.Work.Fifo
import DesktopCube.Work.Losses

namespace DesktopCube.Work
open Transition CMemory BoundedQueue

/-- The steps of `BtAppTask`. -/
def TrafficLabel.isTask : TrafficLabel → Bool
  | .receive | .handle => true
  | .store _ _ | .dispatch _ _ | .rcCtCb _ _ | .send _ => false

/-- The calls have returned true in the run so far. -/
structure Draining (memory : Memory) (calls : List Seen) (pair : Traffic × Journal) : Prop where
  reached : (fifoMachine memory).Reachable pair
  accepted : calls <+: pair.2.accepted

/-- A waiting call takes a receive and an invocation. -/
def unhandled (calls : List Seen) (pair : Traffic × Journal) : Nat :=
  2 * (calls.length - pair.2.invoked.length) - pair.1.core.handling.toList.length

/-- The journal only grows and the callers add nothing to the invocations. -/
theorem Traffic.record_grows (traffic next : Traffic) (label : TrafficLabel) (journal : Journal) :
    journal.accepted <+: (traffic.record label next journal).accepted ∧
      journal.invoked <+: (traffic.record label next journal).invoked ∧
      (label ≠ .handle → (traffic.record label next journal).invoked = journal.invoked) := by
  have entered (seen : Seen) (mallocOk : Bool) (entry : Option (WorkCall × Heap Content)) :
      journal.accepted <+: (journal.enter seen mallocOk entry).accepted ∧
        (journal.enter seen mallocOk entry).invoked = journal.invoked := by
    cases entry with
    | none => exact ⟨List.prefix_rfl, rfl⟩
    | some pair =>
        obtain ⟨call, heap⟩ := pair
        cases prepared : call.prepare mallocOk heap with
        | none => simp [Journal.enter, prepared, Journal.accepted]
        | some msg => simp [Journal.enter, prepared, Journal.accepted]
  cases label with
  | store address byte => exact ⟨List.prefix_rfl, List.prefix_rfl, fun _ => rfl⟩
  | receive => exact ⟨List.prefix_rfl, List.prefix_rfl, fun _ => rfl⟩
  | dispatch arguments mallocOk =>
      obtain ⟨accepted, invoked⟩ :=
        entered (arguments.seen traffic.memory) mallocOk (traffic.entry (.dispatch arguments mallocOk))
      exact ⟨accepted, invoked ▸ List.prefix_rfl, fun _ => invoked⟩
  | rcCtCb report mallocOk =>
      obtain ⟨accepted, invoked⟩ :=
        entered (report.seen traffic.memory) mallocOk (traffic.entry (.rcCtCb report mallocOk))
      exact ⟨accepted, invoked ▸ List.prefix_rfl, fun _ => invoked⟩
  | send draft =>
      simp only [Traffic.record, Journal.send]
      split
      · exact ⟨List.prefix_rfl, List.prefix_rfl, fun _ => rfl⟩
      · refine ⟨?_, List.prefix_rfl, fun _ => rfl⟩
        simp [Journal.accepted]
  | handle =>
      simp only [Traffic.record]
      split
      · exact ⟨List.prefix_rfl, List.prefix_rfl, fun _ => rfl⟩
      · exact ⟨List.prefix_rfl, List.prefix_append _ _, fun other => absurd rfl other⟩

/-- The callers leave the message that the task handles. -/
theorem Traffic.step_handling {traffic next : Traffic} {label : TrafficLabel} (caller : label.isTask = false)
    (taken : traffic.step label = some next) : next.core.handling = traffic.core.handling := by
  have entered (mallocOk : Bool) (entry : Option (WorkCall × Heap Content)) :
      (traffic.enter mallocOk entry).core.handling = traffic.core.handling := by
    cases entry with
    | none => rfl
    | some pair =>
        obtain ⟨call, heap⟩ := pair
        cases prepared : call.prepare mallocOk heap with
        | none => simp only [Traffic.enter, prepared]
        | some msg => simp only [Traffic.enter, prepared]
  unfold Traffic.step at taken
  split at taken
  · cases taken
  · cases label with
    | store address byte =>
        cases taken
        rfl
    | dispatch arguments mallocOk =>
        cases taken
        exact entered mallocOk _
    | rcCtCb report mallocOk =>
        cases taken
        exact entered mallocOk _
    | send draft =>
        obtain ⟨msg, _, rfl⟩ := Option.map_eq_some_iff.mp taken
        rcases btAppSendMsg_cases msg traffic.core with ⟨queue, _, result⟩ | ⟨_, result⟩
        · rw [result]
        · rw [result]
    | receive | handle => cases caller

/-- A receive hands the first message of the queue to the idle task. -/
theorem Traffic.receive_cases {traffic next : Traffic} (taken : traffic.step .receive = some next) :
    ∃ msg queue, traffic.core.handling = none ∧ traffic.core.queue.receive = some (msg, queue) ∧
      next = { traffic with core := { traffic.core with queue := queue, handling := some msg } } := by
  unfold Traffic.step at taken
  split at taken
  · cases taken
  · obtain ⟨core, received, rfl⟩ := Option.map_eq_some_iff.mp taken
    unfold Core.receive at received
    split at received
    · cases received
    · rename_i idle
      obtain ⟨⟨msg, queue⟩, first, rfl⟩ := Option.map_eq_some_iff.mp received
      exact ⟨msg, queue, idle, first, rfl⟩

/-- A handled message leaves the task idle, with or without a fault. -/
theorem Traffic.handle_cases {traffic next : Traffic} (taken : traffic.step .handle = some next) :
    ∃ msg, traffic.core.handling = some msg ∧ next.core.handling = none := by
  unfold Traffic.step at taken
  split at taken
  · cases taken
  · obtain ⟨core, handled, rfl⟩ := Option.map_eq_some_iff.mp taken
    obtain ⟨msg, handling, rfl⟩ := Option.map_eq_some_iff.mp handled
    refine ⟨msg, handling, ?_⟩
    split <;> rfl

namespace Draining

variable {memory : Memory} {calls : List Seen} {pair after : Traffic × Journal} {label : TrafficLabel}

theorem order (draining : Draining memory calls pair) :
    pair.2.invoked ++ pair.1.core.messages.map (Msg.seen pair.1.core.heap) = pair.2.accepted :=
  (Accounted.reachable draining.reached).order

/-- As many invocations as calls are the invocations of the calls. -/
theorem invoked_of_length (draining : Draining memory calls pair)
    (enough : calls.length ≤ pair.2.invoked.length) : calls <+: pair.2.invoked := by
  apply List.prefix_of_prefix_length_le draining.accepted _ enough
  rw [← draining.order]
  exact List.prefix_append _ _

theorem stays (invoked : calls <+: pair.2.invoked) (taken : (fifoMachine memory).step pair label = some after) :
    calls <+: after.2.invoked := by
  rw [(Machine.recorded_step_iff.mp taken).2]
  exact invoked.trans (Traffic.record_grows _ _ label _).2.1

theorem kept (draining : Draining memory calls pair) (taken : (fifoMachine memory).step pair label = some after) :
    Draining memory calls after := by
  refine ⟨.step draining.reached label trivial taken, ?_⟩
  rw [(Machine.recorded_step_iff.mp taken).2]
  exact draining.accepted.trans (Traffic.record_grows _ _ label _).1

/-- A receive starts to handle a message and leaves the journal. -/
theorem receive (taken : (fifoMachine memory).step pair .receive = some after) :
    pair.1.core.handling = none ∧ after.1.core.handling.isSome ∧ after.2.invoked = pair.2.invoked := by
  obtain ⟨moved, recorded⟩ := Machine.recorded_step_iff.mp taken
  obtain ⟨msg, queue, idle, _, same⟩ := Traffic.receive_cases moved
  refine ⟨idle, ?_, by rw [recorded]; rfl⟩
  rw [same]
  rfl

/-- A handled message is invoked. -/
theorem handle (draining : Draining memory calls pair)
    (taken : (fifoMachine memory).step pair .handle = some after) :
    pair.1.core.handling.isSome ∧ after.1.core.handling = none ∧
      after.2.invoked.length = pair.2.invoked.length + 1 := by
  obtain ⟨moved, recorded⟩ := Machine.recorded_step_iff.mp taken
  obtain ⟨msg, handling, idle⟩ := Traffic.handle_cases moved
  have member : msg ∈ pair.1.core.messages ++ pair.1.drafts := by simp [Core.messages, handling]
  have called := (Accounted.reachable draining.reached).holding.called msg member
  refine ⟨by rw [handling]; rfl, idle, ?_⟩
  rw [recorded]
  simp only [Traffic.record, handling, pair.2.invoke_called called, List.length_append, List.length_singleton]

theorem moves (draining : Draining memory calls pair) (taken : (fifoMachine memory).step pair label = some after) :
    calls <+: after.2.invoked ∨ unhandled calls after + label.isTask.toNat ≤ unhandled calls pair := by
  by_cases invoked : calls <+: pair.2.invoked
  · exact .inl (stays invoked taken)
  · apply Or.inr
    have short : pair.2.invoked.length < calls.length := by
      by_contra enough
      exact invoked (draining.invoked_of_length (Nat.le_of_not_lt enough))
    have caller (quiet : label.isTask = false) : unhandled calls after = unhandled calls pair := by
      obtain ⟨moved, recorded⟩ := Machine.recorded_step_iff.mp taken
      have other : label ≠ .handle := fun same => by rw [same] at quiet; cases quiet
      have same := (Traffic.record_grows pair.1 after.1 label pair.2).2.2 other
      rw [← recorded] at same
      rw [unhandled, unhandled, Traffic.step_handling quiet moved, same]
    cases label with
    | store address byte => exact Nat.le_of_eq (caller rfl)
    | dispatch arguments mallocOk => exact Nat.le_of_eq (caller rfl)
    | rcCtCb report mallocOk => exact Nat.le_of_eq (caller rfl)
    | send draft => exact Nat.le_of_eq (caller rfl)
    | receive =>
        obtain ⟨idle, busy, same⟩ := receive taken
        obtain ⟨msg, handling⟩ := Option.isSome_iff_exists.mp busy
        simp only [unhandled, idle, handling, same, Option.toList_none, Option.toList_some, List.length_nil,
          List.length_singleton, TrafficLabel.isTask, Bool.toNat_true]
        omega
    | handle =>
        obtain ⟨busy, idle, more⟩ := draining.handle taken
        obtain ⟨msg, handling⟩ := Option.isSome_iff_exists.mp busy
        simp only [unhandled, idle, handling, more, Option.toList_none, Option.toList_some, List.length_nil,
          List.length_singleton, TrafficLabel.isTask, Bool.toNat_true]
        omega

theorem advances (memory : Memory) (calls : List Seen) :
    (fifoMachine memory).Advances (Draining memory calls) (fun pair => calls <+: pair.2.invoked)
      TrafficLabel.isTask (unhandled calls) where
  kept _ _ _ draining taken := draining.kept taken
  stays _ _ _ _ invoked taken := stays invoked taken
  moves _ _ _ draining taken := draining.moves taken

/-- A task without a fault has a next step while a call is not invoked. -/
theorem enabled (draining : Draining memory calls pair) (sound : pair.1.core.fault = none)
    (waiting : ¬ calls <+: pair.2.invoked) :
    ∃ label after, label.isTask = true ∧ (fifoMachine memory).step pair label = some after := by
  suffices moves : ∃ label, label.isTask = true ∧ (pair.1.step label).isSome by
    obtain ⟨label, task, moved⟩ := moves
    obtain ⟨next, moved⟩ := Option.isSome_iff_exists.mp moved
    exact ⟨label, (next, pair.1.record label next pair.2), task, Machine.recorded_step_iff.mpr ⟨moved, rfl⟩⟩
  cases handling : pair.1.core.handling with
  | some msg =>
      refine ⟨.handle, rfl, ?_⟩
      simp [Traffic.step, sound, Core.handle, handling]
  | none =>
      have order := draining.order
      have present : pair.1.core.queue.items ≠ [] := by
        intro empty
        rw [Core.messages, handling, empty, Option.toList_none, List.append_nil, List.map_nil,
          List.append_nil] at order
        exact waiting (order ▸ draining.accepted)
      refine ⟨.receive, rfl, ?_⟩
      simp [Traffic.step, sound, Core.receive, handling, Queue.receive_isSome present]

end Draining

/-- The task invokes every accepted call within two steps for each, whatever the callers do meanwhile. -/
theorem invoked_within {memory : Memory} {traffic later : Traffic} {journal after : Journal}
    {labels : List TrafficLabel}
    (reached : (fifoMachine memory).Reaches (fun _ label => label.Plain) (fifoMachine memory).initial
      (traffic, journal))
    (plain : ∀ label ∈ labels, label.Plain)
    (finished : (fifoMachine memory).run (traffic, journal) labels = some (later, after)) :
    (2 * traffic.core.queue.items.length + traffic.core.handling.toList.length ≤
        labels.countP TrafficLabel.isTask → journal.accepted <+: after.invoked) ∧
      (journal.accepted <+: after.invoked ∨ ∃ label next, label.isTask = true ∧
        (fifoMachine memory).step (later, after) label = some next) := by
  have path : (fifoMachine memory).Reaches (fun _ label => label.Plain) (traffic, journal) (later, after) :=
    Machine.run_reaches finished fun _ => plain
  have draining : Draining memory journal.accepted (traffic, journal) :=
    ⟨reached.mono fun _ _ _ => trivial, List.prefix_rfl⟩
  have atEnd := (Draining.advances memory journal.accepted).holds_run draining finished
  obtain ⟨_, audited⟩ : ∃ lost, Audited later lost := by
    apply (reached.trans path).invariant fun pair => ∃ lost, Audited pair.1 lost
    · exact ⟨[], rfl, Estate.empty⟩
    · rintro _ _ _ ⟨lost, audited⟩ plain taken
      exact ⟨_, audited.step plain (Machine.recorded_step_iff.mp taken).1⟩
  have order := congrArg List.length draining.order
  rw [List.length_append, List.length_map, Core.messages, List.length_append] at order
  constructor
  · intro enough
    by_contra waiting
    have used := ((Draining.advances memory journal.accepted).run draining finished).resolve_left waiting
    have short : after.invoked.length < journal.accepted.length := by
      by_contra long
      exact waiting (atEnd.invoked_of_length (Nat.le_of_not_lt long))
    have busy : later.core.handling.toList.length ≤ 1 := by
      cases later.core.handling <;> simp
    simp only [unhandled] at used order
    omega
  · by_cases invoked : journal.accepted <+: after.invoked
    · exact .inl invoked
    · exact .inr (atEnd.enabled audited.sound invoked)

/-- A call waits while the task handles another one and a third call is dispatched. -/
theorem invoked_within_two : ∃ journal after : Journal,
    journal.accepted.length = 2 ∧ journal.invoked = [] ∧ journal.accepted <+: after.invoked := by
  have first : (fifoMachine shortMemory).Reaches (fun _ label => label.Plain)
      (Traffic.start shortMemory, Journal.empty) _ :=
    .step .refl (.dispatch ⟨.other 3, .other 9, some 0, 2, none⟩ true) Callback.noConfusion rfl
  have second : (fifoMachine shortMemory).Reaches (fun _ label => label.Plain) _ _ :=
    .step first (.rcCtCb ⟨.metadataRsp, 0, 1, Nat.one_pos, 2, 2⟩ true) trivial rfl
  have sent : (fifoMachine shortMemory).Reaches (fun _ label => label.Plain) _ _ :=
    .step second (.send 0) trivial rfl
  have both : (fifoMachine shortMemory).Reaches (fun _ label => label.Plain) _ _ :=
    .step sent (.send 0) trivial rfl
  have busy : (fifoMachine shortMemory).Reaches (fun _ label => label.Plain) _ _ :=
    .step both .receive trivial rfl
  refine ⟨_, _, ?_, ?_, (invoked_within busy ?_ (show (fifoMachine shortMemory).run _
    [.handle, .dispatch ⟨.other 4, .other 9, none, 0, none⟩ true, .receive, .send 0, .handle] = some _
    from rfl)).1 ?_⟩
  · rfl
  · rfl
  · simp [TrafficLabel.Plain]
  · decide

end DesktopCube.Work
