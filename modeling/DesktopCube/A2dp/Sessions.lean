import DesktopCube.A2dp.MissingBuffer
import DesktopCube.Audio.Flow

namespace DesktopCube.A2dp
open Transition RingBuffer Program Audio

/-- Two sessions that differ in the locals of a returned call. -/
structure Alike (s t : Audio.Session) : Prop where
  ringbufferMode : s.ringbufferMode = t.ringbufferMode
  ringbufI2s : s.ringbufI2s = t.ringbufI2s
  i2sWriteSemaphore : s.i2sWriteSemaphore = t.i2sWriteSemaphore
  point : s.point = t.point
  task : s.task = t.task
  locals : s.point ≠ .idle → s.data = t.data ∧ s.done = t.done

namespace Alike

variable {s t next : Audio.Session}

/-- The returned result of an earlier call does not matter. -/
theorem writeRingbuf_result (s : Audio.Session) (result : Nat) :
    ({ s with result := result } : Audio.Session).writeRingbuf = s.writeRingbuf.map fun next =>
      if next.point = .idle then next else { next with result := result } := by
  unfold Session.writeRingbuf
  cases point : s.point with
  | idle => rfl
  | testDropping | infoDropping | testPrefetching | infoPrefetching | give =>
      simp only
      split <;> rfl
  | send =>
      simp only
      split <;> rfl
  | leaveDropping | enterDropping | leavePrefetching | giveFailed => rfl

/-- The consumer does not read the locals of the producer. -/
theorem btI2sTaskHandler_locals (s : Audio.Session) (contiguous : Nat) (data : List UInt8) (done : Bool)
    (result : Nat) :
    ({ s with data := data, done := done, result := result } : Audio.Session).btI2sTaskHandler contiguous =
      (s.btI2sTaskHandler contiguous).map fun next =>
        { next with data := data, done := done, result := result } := by
  unfold Session.btI2sTaskHandler
  cases task : s.task with
  | take | receive =>
      simp only
      split <;> rfl
  | write | returnItem | underflow => rfl

theorem symm_eq (alike : Alike s t) : t = { s with data := t.data, done := t.done, result := t.result } := by
  obtain ⟨mode, ring, token, point, task, _⟩ := alike
  cases s
  cases t
  simp only at mode ring token point task
  subst mode ring token point task
  rfl

theorem of_locals (s : Audio.Session) (data : List UInt8) (done : Bool) (result : Nat)
    (same : s.point ≠ .idle → s.data = data ∧ s.done = done) :
    Alike s { s with data := data, done := done, result := result } := ⟨rfl, rfl, rfl, rfl, rfl, same⟩

/-- Sessions that look alike take the same steps with the same observations. -/
theorem step {label : SessionLabel} (alike : Alike s t) (taken : s.step label = some next) :
    ∃ after, t.step label = some after ∧ Alike next after ∧
      ∀ h, t.record label after h = s.record label next h := by
  rw [alike.symm_eq]
  have same := alike.locals
  cases label with
  | call data =>
      simp only [Session.step, Session.call] at taken ⊢
      split at taken
      · rename_i idle
        cases taken
        exact ⟨_, if_pos idle, ⟨rfl, rfl, rfl, rfl, rfl, fun _ => ⟨rfl, rfl⟩⟩, fun _ => rfl⟩
      · cases taken
  | writeRingbuf =>
      have busy : s.point ≠ .idle := by
        intro idle
        simp [Session.step, Session.writeRingbuf, idle] at taken
      obtain ⟨data, done⟩ := same busy
      rw [← data, ← done]
      change s.writeRingbuf = some next at taken
      refine ⟨_, (writeRingbuf_result s t.result).trans (by rw [taken]; rfl), ?_, ?_⟩
      · by_cases idle : next.point = .idle
        · simp only [idle, if_true]
          exact of_locals next next.data next.done next.result fun _ => ⟨rfl, rfl⟩
        · simp only [idle, if_false]
          exact of_locals next next.data next.done t.result fun _ => ⟨rfl, rfl⟩
      · intro h
        by_cases idle : next.point = .idle
        · simp only [Session.record, idle, if_true]
        · simp only [Session.record, idle, if_false]
  | btI2sTaskHandler contiguous =>
      change s.btI2sTaskHandler contiguous = some next at taken
      have own := btI2sTaskHandler_locals s contiguous s.data s.done s.result
      rw [taken, Option.map_some, Option.some.injEq] at own
      have point := Audio.Session.btI2sTaskHandler_point taken
      refine ⟨_, (btI2sTaskHandler_locals s contiguous _ _ _).trans (by rw [taken]; rfl), ?_, fun _ => rfl⟩
      apply of_locals
      intro busy
      rw [own]
      exact same (point ▸ busy)

end Alike

/-- The observations of a session belong to its ring buffer, the newest one first. -/
def observe (s : Audio.Session) (label : SessionLabel) (next : Audio.Session) : List History → List History
  | [] => []
  | h :: past => s.record label next h :: past

/-- A new ring buffer begins a new history. -/
def renewSound (op : Op) (succeeds : Bool) (sound : List History) : List History :=
  match op, succeeds with
  | .ringbufferCreate, true => History.empty :: sound
  | _, _ => sound

def Device.record (d : Device) (label : DeviceLabel) (next : Device) (sound : List History) : List History :=
  match label, d.connection.ops with
  | .connection (.execute succeeds), op :: _ => renewSound op succeeds sound
  | .connection _, _ => sound
  | .call data, _ => observe d.session (.call data) next.session sound
  | .writeRingbuf, _ => observe d.session .writeRingbuf next.session sound
  | .btI2sTaskHandler contiguous, _ => observe d.session (.btI2sTaskHandler contiguous) next.session sound

def soundMachine : Machine (Device × List History) DeviceLabel := deviceMachine.recorded [] Device.record

/-- A start-up begins when no call of the data callback is in progress. -/
def Apart (d : Device) : DeviceLabel → Prop
  | .connection (.execute _) => d.connection.ops.head? = some .prefetching → d.session.point = .idle
  | _ => True

instance (d : Device) (label : DeviceLabel) : Decidable (Apart d label) :=
  match label with
  | .connection (.execute _) => inferInstanceAs (Decidable (_ → _))
  | .connection (.report _) | .connection .other | .connection .receive | .call _ | .writeRingbuf
  | .btI2sTaskHandler _ => isTrue trivial

/-- The newest history is one of the single session in a state that looks like this one. -/
def Mirrors (s : Audio.Session) (sound : List History) : Prop :=
  ∃ h past, sound = h :: past ∧ sessionMachine.Mirrored History.empty Session.record Alike s h

namespace Mirrors

variable {s next : Audio.Session} {sound : List History} {label : SessionLabel}

theorem step (mirrors : Mirrors s sound) (taken : s.step label = some next) :
    Mirrors next (observe s label next sound) := by
  obtain ⟨h, past, rfl, mirrored⟩ := mirrors
  refine ⟨_, past, rfl, mirrored.step fun mirror alike => ?_⟩
  obtain ⟨after, moved, still, recorded⟩ := alike.step taken
  exact ⟨after, moved, still, recorded h⟩

/-- A step of the data callback is the same before the consumer exists. -/
theorem step_filling (mirrors : Mirrors { s with task := .take } sound) (producer : label.isConsumer = false)
    (taken : s.step label = some next) : Mirrors { next with task := .take } (observe s label next sound) := by
  have filled : ({ s with task := .take } : Audio.Session).step label = some { next with task := .take } := by
    cases label with
    | call data =>
        simp only [Session.step, Session.call] at taken ⊢
        split at taken
        · rename_i idle
          cases taken
          exact if_pos idle
        · cases taken
    | writeRingbuf =>
        simp only [Session.step, Session.writeRingbuf] at taken ⊢
        cases point : s.point with
        | idle => simp [point] at taken
        | testDropping | infoDropping | send | testPrefetching | infoPrefetching | give =>
            simp only [point] at taken ⊢
            split at taken <;> cases taken <;> simp_all [Session.finish, Session.returnDone]
        | leaveDropping | enterDropping | leavePrefetching | giveFailed =>
            simp only [point] at taken ⊢
            cases taken
            rfl
    | btI2sTaskHandler contiguous => cases producer
  have moved := mirrors.step filled
  cases label with
  | call data => cases sound <;> exact moved
  | writeRingbuf => cases sound <;> exact moved
  | btI2sTaskHandler contiguous => cases producer

/-- The state after a start-up looks like the initial one. -/
theorem start (sound : List History) (idle : s.point = .idle) (mode : s.ringbufferMode = .prefetching)
    (token : s.i2sWriteSemaphore = false) (ring : s.ringbufI2s = Ringbuffer.empty) :
    Mirrors { s with task := .take } (History.empty :: sound) :=
  ⟨_, sound, rfl, Audio.btI2sTaskStartUp, ⟨mode, ring, token, idle, rfl, fun busy => absurd idle busy⟩, .refl⟩

/-- The newest history is one of a single session. -/
theorem reachable {h : History} {past : List History} (mirrors : Mirrors s (h :: past)) :
    ∃ single, deliveryMachine.Reachable (single, h) := by
  obtain ⟨_, _, same, mirror, _, reached⟩ := mirrors
  cases same
  exact ⟨mirror, reached⟩

end Mirrors

/-- No session has begun, its data callback runs alone, or both tasks run. -/
inductive Playing (s : Audio.Session) (r : Resources) (sound : List History) : Prop
  | silent (idle : s.point = .idle) (absent : r.ringbuf.live = [])
  | filling (absent : r.task.live = []) (mirrors : Mirrors { s with task := .take } sound)
  | running (mirrors : Mirrors s sound)

/-- A start-up prepares the initial state of the single session. -/
def Stage (s : Audio.Session) (r : Resources) (sound : List History) : List Op → Prop
  | .semaphoreCreate :: _ => s.point = .idle ∧ s.ringbufferMode = .prefetching
  | .ringbufferCreate :: _ => s.point = .idle ∧ s.ringbufferMode = .prefetching ∧ s.i2sWriteSemaphore = false
  | .taskCreate :: _ => Mirrors { s with task := .take } sound
  | _ => Playing s r sound

def Op.starting : Op → Bool
  | .semaphoreCreate | .ringbufferCreate | .taskCreate => true
  | _ => false

namespace Stage

variable {s next : Audio.Session} {r : Resources} {sound : List History} {ops : List Op}

theorem of_playing (other : ∀ op, ops.head? = some op → op.starting = false) :
    Stage s r sound ops ↔ Playing s r sound := by
  cases ops with
  | nil => rfl
  | cons op rest =>
      have notStarting := other op rfl
      cases op with
      | semaphoreCreate | ringbufferCreate | taskCreate => cases notStarting
      | _ => rfl

/-- The data callback runs only inside a call or on an existing ring buffer. -/
theorem producer {label : SessionLabel} (stage : Stage s r sound ops) (tidy : Tidy ops r)
    (inside : s.point ≠ .idle ∨ r.ringbuf.live ≠ []) (producer : label.isConsumer = false)
    (taken : s.step label = some next) :
    Stage next r (observe s label next sound) ops ∧ ∃ t, Mirrors t (observe s label next sound) := by
  by_cases other : ∀ op, ops.head? = some op → op.starting = false
  · rw [of_playing other] at stage ⊢
    cases stage with
    | silent idle absent => exact absurd inside (not_or.mpr ⟨fun busy => busy idle, fun live => live absent⟩)
    | filling absent mirrors =>
        have moved := mirrors.step_filling producer taken
        exact ⟨.filling absent moved, _, moved⟩
    | running mirrors =>
        have moved := mirrors.step taken
        exact ⟨.running moved, _, moved⟩
  · simp only [not_forall] at other
    obtain ⟨op, head, starting⟩ := other
    obtain ⟨rest, rfl⟩ : ∃ rest, ops = op :: rest := List.head?_eq_some_iff.mp head
    cases op with
    | semaphoreCreate =>
        exact absurd inside
          (not_or.mpr ⟨fun busy => busy stage.1, fun live => live (tidy.ringbuf_live tidy.ordered)⟩)
    | ringbufferCreate =>
        exact absurd inside (not_or.mpr ⟨fun busy => busy stage.1, fun live => live tidy.ordered.1⟩)
    | taskCreate =>
        have moved := Mirrors.step_filling stage producer taken
        exact ⟨moved, _, moved⟩
    | _ => exact absurd rfl starting

/-- Both tasks of a session run while the consumer exists. -/
theorem iff_mirrors (tidy : Tidy ops r) (live : r.task.live ≠ []) : Stage s r sound ops ↔ Mirrors s sound := by
  have other : ∀ op, ops.head? = some op → op.starting = false := by
    intro op head
    obtain ⟨rest, rfl⟩ : ∃ rest, ops = op :: rest := List.head?_eq_some_iff.mp head
    cases op with
    | semaphoreCreate => exact absurd (tidy.task_live (tidy.ringbuf_live tidy.ordered)) live
    | ringbufferCreate => exact absurd (tidy.task_live tidy.ordered.1) live
    | taskCreate => exact absurd tidy.ordered.1 live
    | _ => rfl
  rw [of_playing other]
  constructor
  · intro playing
    cases playing with
    | silent idle absent => exact absurd (tidy.task_live absent) live
    | filling absent mirrors => exact absurd absent live
    | running mirrors => exact mirrors
  · exact .running

end Stage

theorem Slot.delete_absent {slot : Slot} (absent : slot.live = []) : slot.delete.live = [] := by
  unfold Slot.delete
  cases slot.handle with
  | none => exact absent
  | some object => simp [absent]

/-- A handler ends with the operations that follow in its program. -/
theorem rest_of_suffix {state : ConnectionState} {op : Op} {rest : List Op}
    (suffix : op :: rest <:+ btAvHdlA2dEvt state) :
    op = .prefetching ∧ rest = [.semaphoreCreate, .ringbufferCreate, .taskCreate] ∨
      op = .semaphoreCreate ∧ rest = [.ringbufferCreate, .taskCreate] ∨
      op = .ringbufferCreate ∧ rest = [.taskCreate] ∨ op = .taskCreate ∧ rest = [] ∨
      op ≠ .prefetching ∧ op.starting = false ∧ ∀ next, rest.head? = some next → next.starting = false := by
  cases state <;>
    simp only [btAvHdlA2dEvt, btI2sDriverUninstall, btI2sTaskShutDown, btI2sTaskStartUp, btI2sDriverInstall,
      List.cons_append, List.nil_append, List.suffix_cons_iff, List.suffix_nil, List.cons.injEq, reduceCtorEq,
      or_false] at suffix
  · rcases suffix with ⟨rfl, rfl⟩ | ⟨rfl, rfl⟩ | ⟨rfl, rfl⟩ | ⟨rfl, rfl⟩ | ⟨rfl, rfl⟩ <;> simp [Op.starting]
  · rcases suffix with ⟨rfl, rfl⟩ | ⟨rfl, rfl⟩ | ⟨rfl, rfl⟩ <;> simp [Op.starting]
  · rcases suffix with ⟨rfl, rfl⟩ | ⟨rfl, rfl⟩ | ⟨rfl, rfl⟩ | ⟨rfl, rfl⟩ <;> simp

namespace Stage

variable {s : Audio.Session} {r after : Resources} {sound : List History} {op : Op} {rest : List Op}
  {state : ConnectionState} {succeeds : Bool}

/-- The teardown and the channel keep the objects that do not exist. -/
theorem other (playing : Playing s r sound) (notStarting : op.starting = false) (notPrefetching : op ≠ .prefetching)
    (executed : execute r op succeeds = .next after) : Playing (Session.renew s op succeeds) after sound := by
  obtain ⟨session, ring, task⟩ : Session.renew s op succeeds = s ∧
      (r.ringbuf.live = [] → after.ringbuf.live = []) ∧ (r.task.live = [] → after.task.live = []) := by
    cases op with
    | prefetching => exact absurd rfl notPrefetching
    | semaphoreCreate | ringbufferCreate | taskCreate => cases notStarting
    | i2sNewChannel | i2sChannelInitStdMode | i2sChannelEnable | i2sChannelDisable | i2sDelChannel =>
        simp only [A2dp.execute] at executed
        split at executed <;> cases executed
        exact ⟨rfl, id, id⟩
    | taskDelete =>
        cases executed
        exact ⟨rfl, id, Slot.delete_absent⟩
    | ringbufferDelete =>
        cases executed
        exact ⟨rfl, Slot.delete_absent, id⟩
    | semaphoreDelete =>
        cases executed
        exact ⟨rfl, id, id⟩
  rw [session]
  cases playing with
  | silent idle absent => exact .silent idle (ring absent)
  | filling absent mirrors => exact .filling (task absent) mirrors
  | running mirrors => exact .running mirrors

/-- Each operation of `BtAppTask` leads to the stage of the rest of its handler. -/
theorem goesOn (stage : Stage s r sound (op :: rest)) (tidy : Tidy (op :: rest) r)
    (suffix : op :: rest <:+ btAvHdlA2dEvt state) (apart : op = .prefetching → s.point = .idle)
    (executed : execute r op succeeds = .next after) :
    Stage (Session.renew s op succeeds) after (renewSound op succeeds sound) rest := by
  rcases rest_of_suffix suffix with ⟨rfl, rfl⟩ | ⟨rfl, rfl⟩ | ⟨rfl, rfl⟩ | ⟨rfl, rfl⟩ |
    ⟨notPrefetching, notStarting, later⟩
  · exact ⟨apart rfl, rfl⟩
  · cases succeeds with
    | true => exact ⟨stage.1, stage.2, rfl⟩
    | false => cases executed
  · cases succeeds with
    | true => exact Mirrors.start sound stage.1 stage.2.1 stage.2.2 rfl
    | false => cases executed
  · cases executed
    cases succeeds with
    | true => exact .running stage
    | false => exact .filling tidy.ordered.1 stage
  · have kept : renewSound op succeeds sound = sound := by
      cases op with
      | ringbufferCreate => cases notStarting
      | _ => rfl
    have playing : Playing s r sound := by
      apply (of_playing _).mp stage
      intro head same
      cases same
      exact notStarting
    rw [kept]
    exact (of_playing later).mpr (other playing notStarting notPrefetching executed)

/-- A failed creation leaves its handler without a ring buffer. -/
theorem leaves (stage : Stage s r sound (op :: rest)) (tidy : Tidy (op :: rest) r)
    (executed : execute r op succeeds = .leave after) :
    Stage (Session.renew s op succeeds) after (renewSound op succeeds sound) [] := by
  cases op with
  | semaphoreCreate =>
      cases succeeds with
      | true => cases executed
      | false =>
          cases executed
          exact .silent stage.1 (tidy.ringbuf_live tidy.ordered)
  | ringbufferCreate =>
      cases succeeds with
      | true => cases executed
      | false =>
          cases executed
          exact .silent stage.1 tidy.ordered.1
  | i2sNewChannel | i2sChannelInitStdMode | i2sChannelEnable | i2sChannelDisable | i2sDelChannel =>
      simp only [execute] at executed
      split at executed <;> cases executed
  | prefetching | taskCreate | taskDelete | ringbufferDelete | semaphoreDelete => cases executed

end Stage

/-- Every ring buffer has the history of a single session. -/
structure Isolated (d : Device) (sound : List History) : Prop where
  guarded : Guarded d
  suffix : ∃ state, d.connection.ops <:+ btAvHdlA2dEvt state
  single : ∀ h ∈ sound, ∃ s, deliveryMachine.Reachable (s, h)
  stage : Stage d.session d.connection.resources sound d.connection.ops

namespace Isolated

variable {d next : Device} {sound : List History} {label : DeviceLabel}

theorem start : Isolated Device.start [] where
  guarded := Guarded.start
  suffix := ⟨.disconnecting, List.suffix_refl []⟩
  single _ member := absurd member List.not_mem_nil
  stage := .silent rfl rfl

/-- The observed step of a mirrored session goes on with the newest history. -/
theorem single_observe {s after : Audio.Session} {label : SessionLabel}
    (single : ∀ h ∈ sound, ∃ s, deliveryMachine.Reachable (s, h))
    (mirrors : ∃ t, Mirrors t (observe s label after sound)) :
    ∀ h ∈ observe s label after sound, ∃ s, deliveryMachine.Reachable (s, h) := by
  obtain ⟨t, mirrors⟩ := mirrors
  cases sound with
  | nil => exact single
  | cons newest past =>
      intro history member
      rcases List.mem_cons.mp member with rfl | earlier
      · exact mirrors.reachable
      · exact single history (List.mem_cons_of_mem newest earlier)

theorem single_renewSound (single : ∀ h ∈ sound, ∃ s, deliveryMachine.Reachable (s, h)) (op : Op) (succeeds : Bool) :
    ∀ h ∈ renewSound op succeeds sound, ∃ s, deliveryMachine.Reachable (s, h) := by
  unfold renewSound
  split
  · intro history member
    rcases List.mem_cons.mp member with rfl | earlier
    · exact ⟨_, .refl⟩
    · exact single history earlier
  · exact single

/-- The stack and the queue do not touch the sessions. -/
theorem of_queue (isolated : Isolated d sound) (guarded : Guarded next) (session : next.session = d.session)
    (resources : next.connection.resources = d.connection.resources)
    (ops : next.connection.ops = d.connection.ops) : Isolated next sound := by
  refine ⟨guarded, ops ▸ isolated.suffix, isolated.single, ?_⟩
  rw [session, resources, ops]
  exact isolated.stage

/-- A new handler meets the stage that the last one has left. -/
theorem receive {after : Connection} (isolated : Isolated d sound)
    (guarded : Guarded { d with connection := after }) (taken : d.connection.receive = some after) :
    Isolated { d with connection := after } sound := by
  obtain ⟨idle, received⟩ := Connection.receive_cases taken
  rcases received with ⟨state, queue, _, rfl⟩ | ⟨queue, _, rfl⟩
  · refine ⟨guarded, ⟨state, List.suffix_refl _⟩, isolated.single, ?_⟩
    have playing : Playing d.session d.connection.resources sound := by
      have stage := isolated.stage
      rw [idle] at stage
      exact stage
    cases state <;> exact playing
  · exact isolated.of_queue guarded rfl rfl rfl

theorem connection {connection : ConnectionLabel} {after : Connection} (isolated : Isolated d sound)
    (guarded : Guarded { d.renewed connection with connection := after })
    (apart : Apart d (.connection connection)) (taken : connectionMachine.step d.connection connection = some after) :
    Isolated { d.renewed connection with connection := after }
      (d.record (.connection connection) { d.renewed connection with connection := after } sound) := by
  have running := isolated.guarded.inStep.running
  cases connection with
  | report state =>
      rw [Connection.step_report running] at taken
      unfold Connection.report at taken
      split at taken
      · cases taken
        apply isolated.of_queue guarded
        · cases state <;> rfl
        · show (Connection.dispatch _ _).resources = _
          rw [Connection.dispatch_eq]
        · show (Connection.dispatch _ _).ops = _
          rw [Connection.dispatch_eq]
      · cases taken
  | other =>
      rw [Connection.step_other running] at taken
      cases taken
      apply isolated.of_queue guarded rfl
      · show (Connection.dispatch _ _).resources = _
        rw [Connection.dispatch_eq]
      · show (Connection.dispatch _ _).ops = _
        rw [Connection.dispatch_eq]
  | receive =>
      rw [Connection.step_receive running] at taken
      exact isolated.receive guarded taken
  | execute succeeds =>
      rw [Connection.step_execute running] at taken
      obtain ⟨op, rest, ops, result⟩ := Keeping.executed isolated.guarded.inStep taken
      obtain ⟨state, suffix⟩ := isolated.suffix
      have stage := isolated.stage
      have tidy := isolated.guarded.inStep.keeps.now.tidy
      rw [ops] at suffix stage tidy
      have renewed : d.renewed (.execute succeeds) = d.renew op succeeds := by
        simp only [Device.renewed, ops]
      have recorded (next : Device) :
          d.record (.connection (.execute succeeds)) next sound = renewSound op succeeds sound := by
        simp only [Device.record, ops]
      rw [recorded]
      rw [renewed] at guarded ⊢
      have single := single_renewSound isolated.single op succeeds
      rcases result with ⟨r, executed, rfl⟩ | ⟨r, executed, rfl⟩
      · refine ⟨guarded, ⟨state, (List.suffix_cons op rest).trans suffix⟩, single, ?_⟩
        refine stage.goesOn tidy suffix ?_ executed
        rintro rfl
        exact apart (by rw [ops]; rfl)
      · exact ⟨guarded, ⟨state, List.nil_suffix⟩, single, stage.leaves tidy executed⟩

theorem step (isolated : Isolated d sound) (served : d.Served label) (careful : Careful d label)
    (apart : Apart d label) (taken : deviceMachine.step d label = some next) :
    Isolated next (d.record label next sound) := by
  have guarded := isolated.guarded.step served careful taken
  have tidy := isolated.guarded.inStep.keeps.now.tidy
  cases label with
  | connection label =>
      obtain ⟨connection, moved, rfl⟩ := Option.map_eq_some_iff.mp taken
      exact isolated.connection guarded apart moved
  | call data =>
      have live := tidy.ringbuf.usable_iff.mp careful
      change d.call data = some next at taken
      unfold Device.call at taken
      split at taken
      · obtain ⟨session, called, rfl⟩ := Option.map_eq_some_iff.mp taken
        have called : d.session.step (.call data) = some session := called
        obtain ⟨stage, mirrors⟩ := isolated.stage.producer tidy (.inr live) rfl called
        exact ⟨guarded, isolated.suffix, single_observe isolated.single mirrors, stage⟩
      · cases taken
  | writeRingbuf =>
      obtain ⟨session, written, rfl⟩ := Option.map_eq_some_iff.mp taken
      have busy : d.session.point ≠ .idle := by
        intro idle
        simp [Session.writeRingbuf, idle] at written
      have written : d.session.step .writeRingbuf = some session := written
      obtain ⟨stage, mirrors⟩ := isolated.stage.producer tidy (.inl busy) rfl written
      exact ⟨guarded, isolated.suffix, single_observe isolated.single mirrors, stage⟩
  | btI2sTaskHandler contiguous =>
      change d.btI2sTaskHandler contiguous = some next at taken
      unfold Device.btI2sTaskHandler at taken
      split at taken
      · rename_i live
        obtain ⟨session, handled, rfl⟩ := Option.map_eq_some_iff.mp taken
        have handled : d.session.step (.btI2sTaskHandler contiguous) = some session := handled
        have mirrors := ((Stage.iff_mirrors tidy live).mp isolated.stage).step handled
        exact ⟨guarded, isolated.suffix, single_observe isolated.single ⟨_, mirrors⟩,
          (Stage.iff_mirrors tidy live).mpr mirrors⟩
      · cases taken

end Isolated

/-- Every session of the device is one of the single-session model and plays no byte of another session. -/
theorem sessions_isolated {d : Device} {sound : List History}
    (reached : soundMachine.Reaches
      (fun pair label => pair.1.Served label ∧ Careful pair.1 label ∧ Apart pair.1 label)
      soundMachine.initial (d, sound)) :
    CallbackSafe d ∧
      (∀ h ∈ sound, (∃ s, deliveryMachine.Reachable (s, h)) ∧ h.written <+: h.acceptedBytes) ∧
      (d.connection.resources.task.live ≠ [] → ∃ h past, sound = h :: past ∧
        (∃ s, Alike d.session s ∧ deliveryMachine.Reachable (s, h)) ∧
        h.acceptedBytes = h.written ++ d.session.held ++ d.session.ringbufI2s.waiting ∧
        (d.session.i2sWriteSemaphore = true → ringbufPrefetchWaterLevel ≤ d.session.ringbufI2s.itemsWaiting)) := by
  have isolated : Isolated d sound := by
    apply reached.recorded_invariant Isolated Isolated.start
    rintro before label next sound isolated ⟨served, careful, apart⟩ taken
    exact isolated.step served careful apart taken
  refine ⟨isolated.guarded.callbackSafe, ?_, ?_⟩
  · intro h member
    obtain ⟨s, single⟩ := isolated.single h member
    have conserved : h.acceptedBytes = h.written ++ (s.held ++ s.ringbufI2s.waiting) :=
      Pipe.sent_eq (delivery_refines_pipe single)
    exact ⟨⟨s, single⟩, conserved ▸ List.prefix_append _ _⟩
  · intro live
    have tidy := isolated.guarded.inStep.keeps.now.tidy
    obtain ⟨h, past, rfl, mirror, alike, single⟩ := (Stage.iff_mirrors tidy live).mp isolated.stage
    refine ⟨h, past, rfl, ⟨mirror, alike, single⟩, ?_, ?_⟩
    · have conserved : h.acceptedBytes = h.written ++ (mirror.held ++ mirror.ringbufI2s.waiting) :=
        Pipe.sent_eq (delivery_refines_pipe single)
      rw [Session.held, alike.task, alike.ringbufI2s, List.append_assoc]
      exact conserved
    · intro token
      rw [alike.ringbufI2s]
      exact ((PrefetchGate.delivered single).given (alike.i2sWriteSemaphore ▸ token)).2

/-- The second session starts anew after the first one has left three bytes in its ring buffer. -/
theorem sessions_isolated_second : ∃ (d : Device) (second first : History), first.acceptedBytes = [1, 2, 3] ∧
    first.written <+: first.acceptedBytes ∧ ∃ s, Alike d.session s ∧ deliveryMachine.Reachable (s, second) := by
  let connect : List ConnectionLabel := [.report .connecting, .receive] ++ List.replicate 3 (.execute true) ++
    [.report .connected, .receive] ++ List.replicate 4 (.execute true)
  let disconnect : List ConnectionLabel := [.report .disconnected, .receive] ++ List.replicate 5 (.execute true)
  have finished : soundMachine.checkedRun
      (fun pair label => pair.1.Served label ∧ Careful pair.1 label ∧ Apart pair.1 label) soundMachine.initial
      (connect.map .connection ++ .call [1, 2, 3] :: List.replicate 4 .writeRingbuf ++
        (disconnect ++ connect).map .connection) =
      some (_, [_, _]) := rfl
  obtain ⟨_, histories, second⟩ := sessions_isolated (Machine.checkedRun_reaches finished)
  obtain ⟨newest, _, same, mirror, _⟩ := second (List.cons_ne_nil _ _)
  obtain ⟨rfl, _⟩ := List.cons.inj same
  exact ⟨_, _, _, rfl, (histories _ (List.mem_cons_of_mem _ List.mem_cons_self)).2, mirror⟩

end DesktopCube.A2dp
