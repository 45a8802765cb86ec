import DesktopCube.A2dp.Device

namespace DesktopCube.A2dp
open Transition BoundedQueue RingBuffer Program Audio

/-- The next access of `write_ringbuf` is an operation on the ring buffer. -/
def usesRingbuf : WritePoint → Bool
  | .infoDropping | .send | .infoPrefetching => true
  | _ => false

/-- The next access of `write_ringbuf` is a write of `ringbuffer_mode`. -/
def writesMode : WritePoint → Bool
  | .leaveDropping | .enterDropping | .leavePrefetching => true
  | _ => false

/-- The data callback acts on existing objects and on the mode of its own session. -/
structure CallbackSafe (d : Device) : Prop where
  ringbuf : usesRingbuf d.session.point = true → d.connection.resources.ringbuf.usable = true
  semaphore : d.session.point = .give → d.connection.resources.semaphore.usable = true
  mode : writesMode d.session.point = true → d.startUps ≤ d.callSession

/-- The call in progress has an operation on the ring buffer before it. -/
def NeedsRingbuf (s : Session) : Prop :=
  s.point = .testDropping ∨ usesRingbuf s.point = true ∨
    s.point = .testPrefetching ∧ s.ringbufferMode = .prefetching

/-- The call in progress has an operation on the semaphore before it. -/
def NeedsSemaphore (s : Session) : Prop := s.point = .leavePrefetching ∨ s.point = .give

/-- No call is in progress that can still read or write the mode. -/
def Returning (s : Session) : Prop := s.point = .idle ∨ s.point = .giveFailed

/-- A call that returns needs no object. -/
theorem Returning.free {s : Session} (returning : Returning s) : ¬ NeedsRingbuf s ∧ ¬ NeedsSemaphore s := by
  rcases returning with idle | failed
  · simp [NeedsRingbuf, NeedsSemaphore, usesRingbuf, idle]
  · simp [NeedsRingbuf, NeedsSemaphore, usesRingbuf, failed]

/-- A start-up may meet a call that is about to write the mode of the same session. -/
def MayStartUp (d : Device) : Prop :=
  Returning d.session ∨
    (d.session.point = .leaveDropping ∨ d.session.point = .enterDropping) ∧ d.startUps < d.callSession

/-- The next operation of `BtAppTask` spares the call in progress. -/
def Spares (d : Device) : List Op → Prop
  | .prefetching :: _ => MayStartUp d
  | .ringbufferDelete :: _ => ¬ NeedsRingbuf d.session
  | .semaphoreDelete :: _ => ¬ NeedsSemaphore d.session
  | _ => True

/-- Each call begins on an existing ring buffer and is spared. -/
def Careful (d : Device) : DeviceLabel → Prop
  | .call _ => d.connection.resources.ringbuf.usable = true
  | .connection (.execute _) => Spares d d.connection.ops
  | _ => True

/-- The start-ups that the reports of CONNECTED still cause. -/
def Connection.pendingStartUps (c : Connection) : Nat :=
  c.ops.count .prefetching + c.queue.items.count (.connectionState .connected)

/-- A careful run keeps every object that the call in progress needs. -/
structure Guarded (d : Device) : Prop where
  inStep : InStep d.connection
  counted : d.startUps + d.connection.pendingStartUps ≤ d.sessions
  ringbuf : NeedsRingbuf d.session → d.connection.resources.ringbuf.live ≠ []
  semaphore : NeedsSemaphore d.session → d.connection.resources.semaphore.live ≠ []
  own : ¬ Returning d.session → d.startUps ≤ d.callSession

/-- An operation that succeeds or fails ends in these resources. -/
def Ends (r : Resources) (op : Op) (succeeds : Bool) (after : Resources) : Prop :=
  execute r op succeeds = .next after ∨ execute r op succeeds = .leave after

theorem Ends.prefetching {r after : Resources} {succeeds : Bool}
    (ends : Ends r .prefetching succeeds after) : after = r := by
  rcases ends with ends | ends <;> cases ends
  rfl

theorem Ends.ringbufferDelete {r after : Resources} {succeeds : Bool}
    (ends : Ends r .ringbufferDelete succeeds after) : after.ringbuf = r.ringbuf.delete := by
  rcases ends with ends | ends <;> cases ends
  rfl

theorem Ends.semaphoreDelete {r after : Resources} {succeeds : Bool}
    (ends : Ends r .semaphoreDelete succeeds after) : after.semaphore = r.semaphore.delete := by
  rcases ends with ends | ends <;> cases ends
  rfl

/-- Only its deletion ends the ring buffer. -/
theorem Ends.ringbuf_live {r after : Resources} {op : Op} {succeeds : Bool}
    (ends : Ends r op succeeds after) (kept : op ≠ .ringbufferDelete) (live : r.ringbuf.live ≠ []) :
    after.ringbuf.live ≠ [] := by
  have created := Slot.create_keeps_live succeeds live
  unfold Ends execute at ends
  cases op with
  | ringbufferDelete => exact absurd rfl kept
  | _ => cases succeeds <;> grind

/-- Only its deletion ends the semaphore. -/
theorem Ends.semaphore_live {r after : Resources} {op : Op} {succeeds : Bool}
    (ends : Ends r op succeeds after) (kept : op ≠ .semaphoreDelete) (live : r.semaphore.live ≠ []) :
    after.semaphore.live ≠ [] := by
  have created := Slot.create_keeps_live succeeds live
  unfold Ends execute at ends
  cases op with
  | semaphoreDelete => exact absurd rfl kept
  | _ => cases succeeds <;> grind

namespace Session

theorem renew_point (s : Audio.Session) (op : Op) (succeeds : Bool) : (renew s op succeeds).point = s.point := by
  cases op <;> cases succeeds <;> rfl

theorem renew_ringbufferMode (s : Audio.Session) {op : Op} (succeeds : Bool) (other : op ≠ .prefetching) :
    (renew s op succeeds).ringbufferMode = s.ringbufferMode := by
  cases op with
  | prefetching => exact absurd rfl other
  | _ => cases succeeds <;> rfl

/-- A step of `write_ringbuf` ends the call, follows a need of the ring buffer or leads towards the semaphore. -/
theorem writeRingbuf_cases {s next : Audio.Session} (taken : s.writeRingbuf = some next) :
    Returning next ∨ NeedsRingbuf s ∨
      ¬ Returning s ∧ ¬ NeedsRingbuf next ∧ (NeedsSemaphore next → NeedsSemaphore s) := by
  unfold Audio.Session.writeRingbuf at taken
  cases point : s.point with
  | idle => simp [point] at taken
  | testDropping => exact .inr (.inl (.inl point))
  | infoDropping | send | infoPrefetching => exact .inr (.inl (.inr (.inl (by rw [point]; rfl))))
  | testPrefetching =>
      by_cases mode : s.ringbufferMode = .prefetching
      · exact .inr (.inl (.inr (.inr ⟨point, mode⟩)))
      · simp only [point, if_neg mode] at taken
        cases taken
        exact .inl (.inl rfl)
  | leaveDropping | giveFailed =>
      simp only [point] at taken
      cases taken
      exact .inl (.inl rfl)
  | enterDropping =>
      -- The next access reads back the mode DROPPING.
      simp only [point] at taken
      cases taken
      refine .inr (.inr ⟨?_, ?_, ?_⟩)
      · simp [Returning, point]
      · simp [NeedsRingbuf, usesRingbuf]
      · simp [NeedsSemaphore]
  | leavePrefetching =>
      simp only [point] at taken
      cases taken
      refine .inr (.inr ⟨?_, ?_, fun _ => .inl point⟩)
      · simp [Returning, point]
      · simp [NeedsRingbuf, usesRingbuf]
  | give =>
      simp only [point] at taken
      split at taken
      · cases taken
        exact .inl (.inr rfl)
      · cases taken
        exact .inl (.inl rfl)

/-- A step of `write_ringbuf` comes to need only what the call needed before it. -/
theorem writeRingbuf_needs {s next : Audio.Session} (taken : s.writeRingbuf = some next) :
    (NeedsRingbuf next → NeedsRingbuf s) ∧ (NeedsSemaphore next → NeedsRingbuf s ∨ NeedsSemaphore s) ∧
      (¬ Returning next → ¬ Returning s) := by
  rcases writeRingbuf_cases taken with returning | needed | ⟨busy, other, semaphore⟩
  · exact ⟨fun needs => absurd needs returning.free.1, fun needs => absurd needs returning.free.2,
      fun moves => absurd returning moves⟩
  · exact ⟨fun _ => needed, fun _ => .inl needed, fun _ returning => returning.free.1 needed⟩
  · exact ⟨fun needs => absurd needs other, fun needs => .inr (semaphore needs), fun _ => busy⟩

end Session

namespace Connection

variable {c next : Connection} {label : ConnectionLabel}

/-- A dispatched message adds a start-up when it reports CONNECTED. -/
theorem dispatch_pendingStartUps (c : Connection) (message : Message) :
    (c.dispatch message).pendingStartUps ≤
      c.pendingStartUps + if message = .connectionState .connected then 1 else 0 := by
  have ops : (c.dispatch message).ops = c.ops := by rw [dispatch_eq]
  unfold pendingStartUps
  rw [ops]
  rcases dispatch_items c message with sent | full
  · rw [sent, List.count_append, List.count_singleton]
    simp only [beq_iff_eq]
    omega
  · rw [full.1]
    omega

theorem report_pendingStartUps {state : ConnectionState} (taken : c.report state = some next) :
    next.resources = c.resources ∧
      next.pendingStartUps ≤ c.pendingStartUps + if state = .connected then 1 else 0 := by
  unfold report at taken
  split at taken
  · cases taken
    refine ⟨by rw [dispatch_eq], ?_⟩
    have pending := dispatch_pendingStartUps { c with stack := state } (.connectionState state)
    simp only [Message.connectionState.injEq] at pending
    exact pending
  · cases taken

theorem receive_pendingStartUps (taken : c.receive = some next) :
    next.pendingStartUps = c.pendingStartUps := by
  obtain ⟨idle, received⟩ := receive_cases taken
  unfold pendingStartUps
  rcases received with ⟨state, queue, items, rfl⟩ | ⟨queue, items, rfl⟩
  · rw [idle, items]
    cases state <;> simp [btAvHdlA2dEvt, btI2sDriverUninstall, btI2sTaskShutDown, btI2sTaskStartUp,
      btI2sDriverInstall, Nat.add_comm]
  · rw [items]
    simp

/-- An executed operation leaves the start-ups of the rest of its handler. -/
theorem pendingStartUps_of_rest {op : Op} {rest : List Op} (ops : c.ops = op :: rest)
    (remaining : next.ops = rest ∨ next.ops = []) (queue : next.queue = c.queue) :
    next.pendingStartUps + (if op = .prefetching then 1 else 0) ≤ c.pendingStartUps := by
  unfold pendingStartUps
  rw [ops, queue, List.count_cons]
  simp only [beq_iff_eq]
  rcases remaining with rest | none
  · rw [rest]
    omega
  · rw [none, List.count_nil]
    omega

end Connection

/-- An operation ends with the rest of its handler or leaves it. -/
theorem InStep.executed {c next : Connection} {succeeds : Bool} (inStep : InStep c)
    (taken : c.execute succeeds = some next) :
    ∃ op rest, c.ops = op :: rest ∧ Ends c.resources op succeeds next.resources ∧
      (next.ops = rest ∨ next.ops = []) ∧ next.queue = c.queue := by
  obtain ⟨op, rest, ops, result⟩ := Keeping.executed inStep taken
  refine ⟨op, rest, ops, ?_⟩
  rcases result with ⟨r, executed, rfl⟩ | ⟨r, executed, rfl⟩
  · exact ⟨.inl executed, .inl rfl, rfl⟩
  · exact ⟨.inr executed, .inr rfl, rfl⟩

namespace Guarded

variable {d next : Device} {label : DeviceLabel}

theorem start : Guarded Device.start where
  inStep := InStep.start
  counted := Nat.le_refl 0
  ringbuf needs := by simp [NeedsRingbuf, Device.start, Audio.btI2sTaskStartUp, usesRingbuf] at needs
  semaphore needs := by simp [NeedsSemaphore, Device.start, Audio.btI2sTaskStartUp] at needs
  own moves := absurd (.inl rfl) moves

/-- A live ring buffer comes with its semaphore. -/
theorem semaphore_of_ringbuf (guarded : Guarded d) (live : d.connection.resources.ringbuf.live ≠ []) :
    d.connection.resources.semaphore.live ≠ [] :=
  guarded.inStep.keeps.now.tidy.ringbufOwned live

/-- The stack and the queue do not touch the call in progress. -/
theorem of_connection {connection : Connection} (guarded : Guarded d) (sessions : Nat)
    (inStep : InStep connection) (resources : connection.resources = d.connection.resources)
    (counted : d.startUps + connection.pendingStartUps ≤ sessions) :
    Guarded { d with connection := connection, sessions := sessions } where
  inStep := inStep
  counted := counted
  ringbuf := resources ▸ guarded.ringbuf
  semaphore := resources ▸ guarded.semaphore
  own := guarded.own

/-- An operation of `BtAppTask` spares what the call in progress needs. -/
theorem execute {succeeds : Bool} {connection : Connection} (guarded : Guarded d)
    (careful : Careful d (.connection (.execute succeeds))) (inStep : InStep connection)
    (taken : connectionMachine.step d.connection (.execute succeeds) = some connection) :
    Guarded { d.renewed (.execute succeeds) with connection := connection } := by
  rw [Connection.step_execute guarded.inStep.running] at taken
  obtain ⟨op, rest, ops, ends, remaining, queue⟩ := guarded.inStep.executed taken
  have pending := Connection.pendingStartUps_of_rest ops remaining queue
  have counted := guarded.counted
  have renewed : d.renewed (.execute succeeds) = d.renew op succeeds := by
    simp only [Device.renewed, ops]
  have point : (d.renew op succeeds).session.point = d.session.point :=
    Session.renew_point d.session op succeeds
  simp only [Careful, ops] at careful
  rw [renewed]
  have semaphore : NeedsSemaphore (d.renew op succeeds).session →
      connection.resources.semaphore.live ≠ [] := by
    intro needs
    unfold NeedsSemaphore at needs
    rw [point] at needs
    apply ends.semaphore_live _ (guarded.semaphore needs)
    rintro rfl
    exact careful needs
  by_cases starts : op = .prefetching
  · subst starts
    refine ⟨inStep, ?_, ?_, semaphore, ?_⟩
    · simp only [Device.renew, if_true] at pending ⊢
      omega
    · intro needs
      rcases careful with returning | ⟨writing, _⟩
      · unfold Returning at returning
        rw [← point] at returning
        exact absurd needs (Returning.free returning).1
      · unfold NeedsRingbuf at needs
        rw [point] at needs
        rcases writing with leaving | entering
        · simp [leaving, usesRingbuf] at needs
        · simp [entering, usesRingbuf] at needs
    · intro moves
      unfold Returning at moves
      rw [point] at moves
      rcases careful with returning | ⟨_, earlier⟩
      · exact absurd returning moves
      · exact earlier
  · have mode := Session.renew_ringbufferMode d.session succeeds starts
    refine ⟨inStep, ?_, ?_, semaphore, ?_⟩
    · simp only [Device.renew, starts, if_false] at pending ⊢
      omega
    · intro needs
      unfold NeedsRingbuf at needs
      rw [point] at needs
      change _ ∨ _ ∨ _ ∧ (Session.renew d.session op succeeds).ringbufferMode = _ at needs
      rw [mode] at needs
      apply ends.ringbuf_live _ (guarded.ringbuf needs)
      rintro rfl
      exact careful needs
    · intro moves
      unfold Returning at moves
      rw [point] at moves
      simp only [Device.renew, starts, if_false]
      exact guarded.own moves

/-- A report of CONNECTED begins a session before its start-up waits. -/
theorem report {state : ConnectionState} {connection : Connection} (guarded : Guarded d)
    (inStep : InStep connection)
    (taken : connectionMachine.step d.connection (.report state) = some connection) :
    Guarded { d.renewed (.report state) with connection := connection } := by
  rw [Connection.step_report guarded.inStep.running] at taken
  obtain ⟨resources, pending⟩ := Connection.report_pendingStartUps taken
  have counted := guarded.counted
  by_cases connected : state = .connected
  · subst connected
    apply guarded.of_connection (d.sessions + 1) inStep resources
    rw [if_pos rfl] at pending
    omega
  · have renewed : d.renewed (.report state) = d := by
      cases state <;> first | rfl | exact absurd rfl connected
    rw [renewed]
    apply guarded.of_connection d.sessions inStep resources
    rw [if_neg connected] at pending
    omega

theorem other {connection : Connection} (guarded : Guarded d) (inStep : InStep connection)
    (taken : connectionMachine.step d.connection .other = some connection) :
    Guarded { d.renewed .other with connection := connection } := by
  rw [Connection.step_other guarded.inStep.running] at taken
  cases taken
  have resources : (d.connection.dispatch .other).resources = d.connection.resources := by
    rw [Connection.dispatch_eq]
  have pending := Connection.dispatch_pendingStartUps d.connection .other
  rw [if_neg nofun] at pending
  exact guarded.of_connection d.sessions inStep resources
    (Nat.le_trans (Nat.add_le_add_left pending d.startUps) guarded.counted)

theorem receive {connection : Connection} (guarded : Guarded d) (inStep : InStep connection)
    (taken : connectionMachine.step d.connection .receive = some connection) :
    Guarded { d.renewed .receive with connection := connection } := by
  rw [Connection.step_receive guarded.inStep.running] at taken
  have resources : connection.resources = d.connection.resources := by
    rcases (Connection.receive_cases taken).2 with ⟨_, _, _, rfl⟩ | ⟨_, _, rfl⟩ <;> rfl
  have pending := Connection.receive_pendingStartUps taken
  exact guarded.of_connection d.sessions inStep resources (pending ▸ guarded.counted)

theorem connection {label : ConnectionLabel} {connection : Connection} (guarded : Guarded d)
    (served : A2dp.Served d.connection label) (careful : Careful d (.connection label))
    (taken : connectionMachine.step d.connection label = some connection) :
    Guarded { d.renewed label with connection := connection } := by
  have inStep := guarded.inStep.step served taken
  cases label with
  | report state => exact guarded.report inStep taken
  | other => exact guarded.other inStep taken
  | receive => exact guarded.receive inStep taken
  | execute succeeds => exact guarded.execute careful inStep taken

/-- A call on an existing ring buffer belongs to the last session. -/
theorem call {data : List UInt8} (guarded : Guarded d) (careful : Careful d (.call data))
    (taken : d.call data = some next) : Guarded next := by
  unfold Device.call Session.call at taken
  have live := guarded.inStep.keeps.now.tidy.ringbuf.usable_iff.mp careful
  split at taken
  · split at taken
    · cases taken
      exact ⟨guarded.inStep, guarded.counted, fun _ => live, fun _ => guarded.semaphore_of_ringbuf live,
        fun _ => Nat.le_trans (Nat.le_add_right _ _) guarded.counted⟩
    · cases taken
  · cases taken

/-- A step of the data callback keeps what the rest of the call needs. -/
theorem writeRingbuf {session : Audio.Session} (guarded : Guarded d)
    (taken : d.session.writeRingbuf = some session) : Guarded { d with session := session } := by
  obtain ⟨ringbuf, semaphore, moves⟩ := Session.writeRingbuf_needs taken
  refine ⟨guarded.inStep, guarded.counted, fun needs => guarded.ringbuf (ringbuf needs), ?_,
    fun moving => guarded.own (moves moving)⟩
  intro needs
  rcases semaphore needs with needed | needed
  · exact guarded.semaphore_of_ringbuf (guarded.ringbuf needed)
  · exact guarded.semaphore needed

/-- The I2S task sets the mode only while the ring buffer exists. -/
theorem btI2sTaskHandler {contiguous : Nat} (guarded : Guarded d)
    (taken : d.btI2sTaskHandler contiguous = some next) : Guarded next := by
  unfold Device.btI2sTaskHandler at taken
  split at taken
  · rename_i task
    obtain ⟨session, handled, rfl⟩ := Option.map_eq_some_iff.mp taken
    have live := guarded.inStep.keeps.now.tidy.taskOwned task
    have point := Session.btI2sTaskHandler_point handled
    refine ⟨guarded.inStep, guarded.counted, fun _ => live, fun _ => guarded.semaphore_of_ringbuf live, ?_⟩
    intro moves
    unfold Returning at moves
    rw [point] at moves
    exact guarded.own moves
  · cases taken

theorem step (guarded : Guarded d) (served : d.Served label) (careful : Careful d label)
    (taken : deviceMachine.step d label = some next) : Guarded next := by
  cases label with
  | connection label =>
      obtain ⟨connection, moved, rfl⟩ := Option.map_eq_some_iff.mp taken
      exact guarded.connection served careful moved
  | call data => exact guarded.call careful taken
  | writeRingbuf =>
      obtain ⟨session, written, rfl⟩ := Option.map_eq_some_iff.mp taken
      exact guarded.writeRingbuf written
  | btI2sTaskHandler contiguous => exact guarded.btI2sTaskHandler taken

/-- Whatever a guarded call uses next exists. -/
theorem callbackSafe (guarded : Guarded d) : CallbackSafe d where
  ringbuf uses :=
    guarded.inStep.keeps.now.tidy.ringbuf.usable_iff.mpr (guarded.ringbuf (.inr (.inl uses)))
  semaphore gives :=
    guarded.inStep.keeps.now.tidy.semaphore.usable_iff.mpr (guarded.semaphore (.inr gives))
  mode writes := by
    apply guarded.own
    rintro (idle | failed)
    · simp [idle, writesMode] at writes
    · simp [failed, writesMode] at writes

end Guarded

end DesktopCube.A2dp
