import DesktopCube.Library.Alternation
import DesktopCube.Library.BoundedQueue
import DesktopCube.Library.Machine

namespace DesktopCube.Avrc
open Transition BoundedQueue Alternation

/-- The events that `bt_app_rc_tg_cb` names and any other one. -/
inductive TgEvent where
  | connectionState (connected : Bool)
  | remoteFeatures
  | passthroughCmd
  | setAbsoluteVolumeCmd
  | registerNotification
  | setPlayerAppValue
  | other (event : UInt16)
  deriving DecidableEq, Repr

/-- `BtAppTask` also gets the messages of the other callbacks. -/
inductive Message where
  | tg (event : TgEvent)
  | other
  deriving DecidableEq, Repr

/-- The handle is written only by `xTaskCreate` and names the task that it created last. -/
structure Target where
  connected : Bool
  queue : Queue Message 10
  vcsTaskHdl : Option Nat
  live : List Nat
  issued : Nat
  aimed : List Bool
  running : Bool

/-- The stack has reported no change of the connection yet. -/
def Target.start (connected : Bool) : Target := ⟨connected, Queue.empty, none, [], 0, [], true⟩

/-- A failed creation leaves the handle as it was. -/
def Target.xTaskCreate (target : Target) (created : Bool) : Target :=
  if created then
    { target with
      vcsTaskHdl := some target.issued
      live := target.issued :: target.live
      issued := target.issued + 1 }
  else target

/-- A handle of no live task deletes `BtAppTask` or an unknown task. -/
def Target.vTaskDelete (target : Target) (handle : Option Nat) : Target :=
  match handle with
  | some task =>
      if task ∈ target.live then
        { target with live := target.live.erase task, aimed := target.aimed ++ [true] }
      else { target with aimed := target.aimed ++ [false], running := false }
  | none => { target with aimed := target.aimed ++ [false], running := false }

/-- The other events do not touch the volume task. -/
def Target.btAvHdlAvrcTgEvt (target : Target) (event : TgEvent) (created : Bool) : Target :=
  match event with
  | .connectionState true => target.xTaskCreate created
  | .connectionState false => target.vTaskDelete target.vcsTaskHdl
  | .remoteFeatures | .passthroughCmd | .setAbsoluteVolumeCmd | .registerNotification
  | .setPlayerAppValue | .other _ => target

/-- The callback ignores whether its message was sent. -/
def Target.dispatch (target : Target) (message : Message) (mallocOk : Bool) : Target :=
  if mallocOk then
    match target.queue.send message with
    | some queue => { target with queue := queue }
    | none => target
  else target

def Target.btAppRcTgCb (target : Target) (event : TgEvent) (mallocOk : Bool) : Target :=
  match event with
  | .connectionState _ | .remoteFeatures | .passthroughCmd | .setAbsoluteVolumeCmd
  | .registerNotification | .setPlayerAppValue => target.dispatch (.tg event) mallocOk
  | .other _ => target

/-- The reports of the connection alternate and the other events come at any time. -/
inductive TargetLabel where
  | report (mallocOk : Bool)
  | event (event : TgEvent) (mallocOk : Bool)
  | other (mallocOk : Bool)
  | handle (created : Bool)

/-- A step of a stack callback, of another task or of `BtAppTask`. -/
def Target.step (target : Target) (label : TargetLabel) : Option Target :=
  if target.running then
    match label with
    | .report mallocOk =>
        let connected := !target.connected
        some ({ target with connected := connected }.btAppRcTgCb (.connectionState connected) mallocOk)
    | .event (.connectionState _) _ => none
    | .event event mallocOk => some (target.btAppRcTgCb event mallocOk)
    | .other mallocOk => some (target.dispatch .other mallocOk)
    | .handle created =>
        match target.queue.receive with
        | some (.tg event, queue) => some ({ target with queue := queue }.btAvHdlAvrcTgEvt event created)
        | some (.other, queue) => some { target with queue := queue }
        | none => none
  else none

def targetMachine (connected : Bool) : Machine Target TargetLabel := ⟨Target.start connected, Target.step⟩

/-- The deletions had the handle of a live volume task and at most one such task is live. -/
def WellAimed (target : Target) : Prop := (∀ aimed ∈ target.aimed, aimed = true) ∧ target.live.length ≤ 1

/-- The message that `BtAppTask` handles next. -/
def Target.head (target : Target) : Option Message := target.queue.items.head?

/-- A created task is due until the next handled report of a disconnection. -/
def Target.record (target : Target) (label : TargetLabel) (_ : Target) (due : Bool) : Bool :=
  match label, target.head with
  | .handle created, some (.tg (.connectionState true)) => created || due
  | .handle _, some (.tg (.connectionState false)) => false
  | _, _ => due

def volumeMachine (connected : Bool) : Machine (Target × Bool) TargetLabel :=
  (targetMachine connected).recorded false Target.record

/-- A task is created only when none is due and a disconnection is handled only when one is. -/
def Paired (pair : Target × Bool) (label : TargetLabel) : Prop :=
  match label, pair.1.head with
  | .handle created, some (.tg (.connectionState true)) => created → pair.2 = false
  | .handle _, some (.tg (.connectionState false)) => pair.2 = true
  | _, _ => True

def Message.connection : Message → Option Bool
  | .tg (.connectionState connected) => some connected
  | .tg _ | .other => none

/-- A step reports a connection, sends another message or handles the first message. -/
inductive Moves (target : Target) : TargetLabel → Target → Prop
  | report (mallocOk : Bool) :
      Moves target (.report mallocOk) ({ target with connected := !target.connected }.dispatch
        (.tg (.connectionState !target.connected)) mallocOk)
  | dispatch {label : TargetLabel} (message : Message) (mallocOk : Bool)
      (sends : ∀ created, label ≠ .handle created) (other : message.connection = none) :
      Moves target label (target.dispatch message mallocOk)
  | create {created : Bool} {queue : Queue Message 10}
      (received : target.queue.receive = some (.tg (.connectionState true), queue)) :
      Moves target (.handle created) ({ target with queue := queue }.xTaskCreate created)
  | delete {created : Bool} {queue : Queue Message 10}
      (received : target.queue.receive = some (.tg (.connectionState false), queue)) :
      Moves target (.handle created) ({ target with queue := queue }.vTaskDelete target.vcsTaskHdl)
  | skip {created : Bool} {message : Message} {queue : Queue Message 10}
      (received : target.queue.receive = some (message, queue)) (other : message.connection = none) :
      Moves target (.handle created) { target with queue := queue }

/-- The volume task and its handle stay as they are. -/
structure Quiet (target next : Target) : Prop where
  vcsTaskHdl : next.vcsTaskHdl = target.vcsTaskHdl
  live : next.live = target.live
  issued : next.issued = target.issued
  aimed : next.aimed = target.aimed

namespace Target

variable {target next : Target} {label : TargetLabel}

theorem dispatch_quiet (target : Target) (message : Message) (mallocOk : Bool) :
    Quiet target (target.dispatch message mallocOk) := by
  unfold dispatch
  repeat' split
  all_goals exact ⟨rfl, rfl, rfl, rfl⟩

theorem vTaskDelete_frame (target : Target) (handle : Option Nat) :
    (target.vTaskDelete handle).queue = target.queue ∧
      (target.vTaskDelete handle).connected = target.connected := by
  unfold vTaskDelete
  repeat' split
  all_goals exact ⟨rfl, rfl⟩

theorem head_of_receive {message : Message} {queue : Queue Message 10}
    (received : target.queue.receive = some (message, queue)) : target.head = some message := by
  rw [head, Queue.receive_some received, List.head?_cons]

/-- The branches of a step are the moves. -/
theorem step_moves (taken : target.step label = some next) : Moves target label next := by
  unfold step at taken
  split at taken
  · cases label with
    | report mallocOk =>
        cases taken
        exact .report mallocOk
    | event event mallocOk =>
        cases event with
        | connectionState connected => cases taken
        | other event =>
            cases taken
            exact .dispatch .other false (fun _ same => by cases same) rfl
        | remoteFeatures | passthroughCmd | setAbsoluteVolumeCmd | registerNotification | setPlayerAppValue =>
            cases taken
            exact .dispatch _ mallocOk (fun _ same => by cases same) rfl
    | other mallocOk =>
        cases taken
        exact .dispatch .other mallocOk (fun _ same => by cases same) rfl
    | handle created =>
        dsimp only at taken
        split at taken
        · rename_i event queue received
          cases taken
          cases event with
          | connectionState connected =>
              cases connected with
              | true => exact .create received
              | false => exact .delete received
          | remoteFeatures | passthroughCmd | setAbsoluteVolumeCmd | registerNotification
          | setPlayerAppValue | other => exact .skip received rfl
        · rename_i queue received
          cases taken
          exact .skip received rfl
        · cases taken
  · cases taken

theorem paired_of_sends (sends : ∀ created, label ≠ .handle created) (due : Bool) :
    target.record label next due = due ∧ Paired (target, due) label := by
  cases label with
  | handle created => exact absurd rfl (sends created)
  | report | event | other => exact ⟨rfl, trivial⟩

/-- A handled message that is no report of the connection leaves the due task. -/
theorem paired_of_skip {created : Bool} {message : Message} (head : target.head = some message)
    (other : message.connection = none) (due : Bool) :
    target.record (.handle created) next due = due ∧ Paired (target, due) (.handle created) := by
  unfold record Paired
  rw [head]
  cases message with
  | tg event =>
      cases event with
      | connectionState connected => cases other
      | remoteFeatures | passthroughCmd | setAbsoluteVolumeCmd | registerNotification | setPlayerAppValue
      | other => exact ⟨rfl, trivial⟩
  | other => exact ⟨rfl, trivial⟩

/-- A step creates the task, deletes it or leaves it alone. -/
theorem step_cases (taken : target.step label = some next) :
    (Quiet target next ∧ ∀ due, target.record label next due = due ∧ Paired (target, due) label) ∨
      ∃ created queue, label = .handle created ∧
        (target.head = some (.tg (.connectionState true)) ∧
            next = { target with queue := queue }.xTaskCreate created ∨
          target.head = some (.tg (.connectionState false)) ∧
            next = { target with queue := queue }.vTaskDelete target.vcsTaskHdl) := by
  cases step_moves taken with
  | report mallocOk =>
      have quiet := dispatch_quiet { target with connected := !target.connected }
        (.tg (.connectionState !target.connected)) mallocOk
      exact .inl ⟨⟨quiet.vcsTaskHdl, quiet.live, quiet.issued, quiet.aimed⟩,
        paired_of_sends fun _ same => by cases same⟩
  | dispatch message mallocOk sends => exact .inl ⟨target.dispatch_quiet message mallocOk, paired_of_sends sends⟩
  | create received => exact .inr ⟨_, _, rfl, .inl ⟨head_of_receive received, rfl⟩⟩
  | delete received => exact .inr ⟨_, _, rfl, .inr ⟨head_of_receive received, rfl⟩⟩
  | skip received other =>
      exact .inl ⟨⟨rfl, rfl, rfl, rfl⟩, paired_of_skip (head_of_receive received) other⟩

end Target

/-- The task that is due is the live one and the handle names it. -/
structure Aimed (target : Target) (due : Bool) : Prop where
  aimed : ∀ aimed ∈ target.aimed, aimed = true
  live : if due then ∃ task, target.vcsTaskHdl = some task ∧ target.live = [task] else target.live = []

namespace Aimed

variable {target next : Target} {due : Bool}

theorem start (connected : Bool) : Aimed (Target.start connected) false :=
  ⟨fun _ member => absurd member List.not_mem_nil, rfl⟩

theorem wellAimed (safe : Aimed target due) : WellAimed target := by
  refine ⟨safe.aimed, ?_⟩
  have live := safe.live
  cases due with
  | false =>
      rw [if_neg Bool.false_ne_true] at live
      rw [live]
      exact Nat.zero_le 1
  | true =>
      obtain ⟨task, _, single⟩ := live
      rw [single]
      exact Nat.le_refl 1

/-- A creation while no task is due makes the new task the due one. -/
theorem xTaskCreate (safe : Aimed target due) (created : Bool) (paired : created → due = false) :
    Aimed (target.xTaskCreate created) (created || due) := by
  cases created with
  | false => exact safe
  | true =>
      obtain rfl := paired rfl
      have live : target.live = [] := safe.live
      refine ⟨safe.aimed, target.issued, rfl, ?_⟩
      show target.issued :: target.live = [target.issued]
      rw [live]

/-- A deletion while a task is due deletes this task. -/
theorem vTaskDelete (safe : Aimed target true) : Aimed (target.vTaskDelete target.vcsTaskHdl) false := by
  obtain ⟨task, handle, live⟩ := safe.live
  have member : task ∈ target.live := by
    rw [live]
    exact List.mem_singleton_self task
  simp only [Target.vTaskDelete, handle, if_pos member]
  constructor
  · intro aimed listed
    rcases List.mem_append.mp listed with old | new
    · exact safe.aimed aimed old
    · exact List.mem_singleton.mp new
  · show target.live.erase task = []
    rw [live]
    simp

theorem queue (safe : Aimed target due) (queue : Queue Message 10) : Aimed { target with queue := queue } due :=
  ⟨safe.aimed, safe.live⟩

theorem quiet (safe : Aimed target due) (quiet : Quiet target next) : Aimed next due := by
  constructor
  · rw [quiet.aimed]
    exact safe.aimed
  · rw [quiet.vcsTaskHdl, quiet.live]
    exact safe.live

/-- A paired step keeps the aim. -/
theorem step {label : TargetLabel} (safe : Aimed target due) (paired : Paired (target, due) label)
    (taken : target.step label = some next) : Aimed next (target.record label next due) := by
  rcases Target.step_cases taken with ⟨quiet, same⟩ | ⟨created, queue, rfl, ⟨head, rfl⟩ | ⟨head, rfl⟩⟩
  · rw [(same due).1]
    exact safe.quiet quiet
  · simp only [Paired, head] at paired
    simp only [Target.record, head]
    exact (safe.queue queue).xTaskCreate created paired
  · simp only [Paired, head] at paired
    simp only [Target.record, head]
    subst paired
    exact (safe.queue queue).vTaskDelete

/-- An unpaired step misses. -/
theorem misses {label : TargetLabel} (safe : Aimed target due) (unpaired : ¬ Paired (target, due) label)
    (taken : target.step label = some next) : ¬ WellAimed next := by
  rcases Target.step_cases taken with ⟨_, same⟩ | ⟨created, queue, rfl, ⟨head, rfl⟩ | ⟨head, rfl⟩⟩
  · exact absurd (same due).2 unpaired
  · simp only [Paired, head, Classical.not_imp, Bool.not_eq_false] at unpaired
    obtain ⟨rfl, rfl⟩ := unpaired
    obtain ⟨task, _, live⟩ := safe.live
    intro wellAimed
    have two : (target.issued :: target.live).length ≤ 1 := wellAimed.2
    rw [live, List.length_cons, List.length_singleton] at two
    omega
  · simp only [Paired, head, Bool.not_eq_true] at unpaired
    subst unpaired
    have live : target.live = [] := safe.live
    intro wellAimed
    have missed : false ∈ ({ target with queue := queue }.vTaskDelete target.vcsTaskHdl).aimed := by
      unfold Target.vTaskDelete
      split
      · simp [live]
      · simp
    exact absurd (wellAimed.1 false missed) Bool.false_ne_true

theorem reaches {connected : Bool} {pair : Target × Bool}
    (reached : (volumeMachine connected).Reaches Paired (Target.start connected, false) pair) :
    Aimed pair.1 pair.2 :=
  reached.recorded_invariant Aimed (start connected) fun _ _ _ _ safe paired taken => safe.step paired taken

end Aimed

/-- The deletions are well aimed in every run of paired steps and in no longer run. -/
theorem wellAimed_of_paired {connected : Bool} {target : Target} {due : Bool}
    (reached : (volumeMachine connected).Reaches Paired (Target.start connected, false) (target, due)) :
    WellAimed target ∧ ∀ label next, ¬ Paired (target, due) label → target.step label = some next →
      ¬ WellAimed next := by
  have safe := Aimed.reaches reached
  exact ⟨safe.wellAimed, fun _ _ unpaired taken => safe.misses unpaired taken⟩

/-- A connection whose task is created and its disconnection. -/
theorem wellAimed_of_paired_once : ∃ target : Target, WellAimed target ∧ target.aimed = [true] ∧ target.live = [] := by
  have reported : (volumeMachine false).Reaches Paired (Target.start false, false) _ :=
    .step .refl (.report true) trivial rfl
  have created : (volumeMachine false).Reaches Paired (Target.start false, false) _ :=
    .step reported (.handle true) (fun _ => rfl) rfl
  have again : (volumeMachine false).Reaches Paired (Target.start false, false) _ :=
    .step created (.report true) trivial rfl
  have deleted : (volumeMachine false).Reaches Paired (Target.start false, false) _ :=
    .step again (.handle true) rfl rfl
  exact ⟨_, (wellAimed_of_paired deleted).1, rfl, rfl⟩

/-- A disconnection after a failed creation deletes `BtAppTask` itself. -/
theorem not_wellAimed : ¬ ∀ target, (targetMachine false).Reachable target → WellAimed target := by
  intro aimed
  have reported : (targetMachine false).Reachable _ := .step .refl (.report true) trivial rfl
  have failed : (targetMachine false).Reachable _ := .step reported (.handle false) trivial rfl
  have again : (targetMachine false).Reachable _ := .step failed (.report true) trivial rfl
  have deleted : (targetMachine false).Reachable _ := .step again (.handle true) trivial rfl
  exact absurd ((aimed _ deleted).1 false (by decide)) Bool.false_ne_true

/-- No report is lost and every creation succeeds. -/
def Lossless (pair : Target × Bool) (label : TargetLabel) : Prop :=
  match label with
  | .report mallocOk => mallocOk ∧ pair.1.queue.HasRoom
  | .handle created => pair.1.head = some (.tg (.connectionState true)) → created
  | .event _ _ | .other _ => True

/-- The reports that wait in the queue lead from the due state to the reported one. -/
def Target.Leading (target : Target) (due : Bool) : Prop :=
  Leads due (target.queue.items.filterMap Message.connection) target.connected

namespace Target.Leading

variable {target next : Target} {due : Bool}

/-- Reports that lead from the due state make every step a paired one. -/
theorem paired (leading : target.Leading due) (label : TargetLabel) : Paired (target, due) label := by
  unfold Leading at leading
  unfold Paired Target.head
  split
  · rename_i head
    obtain ⟨rest, items⟩ := List.head?_eq_some_iff.mp head
    dsimp only at items
    rw [items] at leading
    intro _
    simpa using leading.1
  · rename_i head
    obtain ⟨rest, items⟩ := List.head?_eq_some_iff.mp head
    dsimp only at items
    rw [items] at leading
    simpa using leading.1
  · trivial

/-- A message of another kind leaves the reports in the queue. -/
theorem dispatch {message : Message} (other : message.connection = none) (mallocOk : Bool)
    (leading : target.Leading due) : (target.dispatch message mallocOk).Leading due := by
  unfold Target.dispatch
  split
  · split
    · rename_i queue sent
      show Leads due (queue.items.filterMap Message.connection) target.connected
      rw [Queue.send_some sent, List.filterMap_append, List.filterMap_cons_none other, List.filterMap_nil,
        List.append_nil]
      exact leading
    · exact leading
  · exact leading

/-- A report that is not lost turns the reported state. -/
theorem report (leading : target.Leading due) (room : target.queue.HasRoom) :
    ({ target with connected := !target.connected }.dispatch
      (.tg (.connectionState !target.connected)) true).Leading due := by
  obtain ⟨queue, sent, items⟩ := Queue.send_of_room room (.tg (.connectionState !target.connected))
  simp only [Target.dispatch, if_true, sent]
  show Leads due (queue.items.filterMap Message.connection) (!target.connected)
  rw [items, List.filterMap_append]
  exact leading.append

/-- The reports that wait behind the received message. -/
theorem received {message : Message} {queue : Queue Message 10} (leading : target.Leading due)
    (received : target.queue.receive = some (message, queue)) :
    Leads due ((message :: queue.items).filterMap Message.connection) target.connected := by
  rw [← Queue.receive_some received]
  exact leading

/-- A step that loses nothing leaves reports that lead from the new due state. -/
theorem step {label : TargetLabel} (leading : target.Leading due) (lossless : Lossless (target, due) label)
    (taken : target.step label = some next) : next.Leading (target.record label next due) := by
  cases Target.step_moves taken with
  | report mallocOk =>
      obtain ⟨rfl, room⟩ := lossless
      exact leading.report room
  | dispatch message mallocOk sends other =>
      rw [(Target.paired_of_sends sends due).1]
      exact leading.dispatch other mallocOk
  | create received =>
      have head := Target.head_of_receive received
      obtain rfl := lossless head
      simp only [Target.record, head]
      exact (leading.received received).2
  | @delete created queue received =>
      obtain ⟨items, connected⟩ := Target.vTaskDelete_frame { target with queue := queue } target.vcsTaskHdl
      simp only [Leading, Target.record, Target.head_of_receive received, items, connected]
      exact (leading.received received).2
  | skip received other =>
      rw [(Target.paired_of_skip (Target.head_of_receive received) other due).1]
      have rest := leading.received received
      rw [List.filterMap_cons_none other] at rest
      exact rest

end Target.Leading

/-- Reports that all arrive and creations that all succeed aim every deletion. -/
theorem wellAimed_of_lossless {target : Target} {due : Bool}
    (reached : (volumeMachine false).Reaches Lossless (Target.start false, false) (target, due)) :
    WellAimed target := by
  have both : Aimed target due ∧ target.Leading due := by
    apply reached.recorded_invariant fun target due => Aimed target due ∧ target.Leading due
    · exact ⟨Aimed.start false, rfl⟩
    · rintro target label next due ⟨aimed, leading⟩ lossless taken
      exact ⟨aimed.step (leading.paired label) taken, leading.step lossless taken⟩
  exact both.1.wellAimed

end DesktopCube.Avrc
