import DesktopCube.Audio.Delivery
import DesktopCube.Audio.Stall
import DesktopCube.Library.Progress

namespace DesktopCube.Audio
open Transition RingBuffer

/-- The consumer uses an item from its receive to its return. -/
structure ItemInUse (s : Session) : Prop where
  taken : s.task = .write → s.ringbufI2s.taken ≠ []
  returned : s.task ≠ .write → s.task ≠ .returnItem → s.ringbufI2s.taken = []

/-- The producer leaves the consumer its point, its item and its token. -/
structure LeavesConsumer (s next : Session) : Prop where
  task : next.task = s.task
  taken : next.ringbufI2s.taken = s.ringbufI2s.taken
  token : s.i2sWriteSemaphore = true → next.i2sWriteSemaphore = true

namespace LeavesConsumer

variable {s next : Session}

theorem call {data : List UInt8} (taken : s.call data = some next) : LeavesConsumer s next := by
  unfold Session.call at taken
  split at taken
  · cases taken
    exact ⟨rfl, rfl, id⟩
  · cases taken

theorem writeRingbuf (taken : s.writeRingbuf = some next) : LeavesConsumer s next := by
  unfold Session.writeRingbuf at taken
  cases point : s.point with
  | idle => simp [point] at taken
  | testDropping | infoDropping | testPrefetching | infoPrefetching =>
      simp only [point] at taken
      split at taken <;> cases taken <;> exact ⟨rfl, rfl, id⟩
  | leaveDropping | enterDropping | leavePrefetching | giveFailed =>
      simp only [point] at taken
      cases taken
      exact ⟨rfl, rfl, id⟩
  | send =>
      simp only [point] at taken
      split at taken
      · rename_i sent
        cases taken
        exact ⟨rfl, (Ringbuffer.send_some sent).2, id⟩
      · cases taken
        exact ⟨rfl, rfl, id⟩
  | give =>
      simp only [point] at taken
      split at taken
      · cases taken
        exact ⟨rfl, rfl, id⟩
      · cases taken
        exact ⟨rfl, rfl, fun _ => rfl⟩

end LeavesConsumer

namespace ItemInUse

variable {s next : Session}

theorem btI2sTaskHandler {contiguous : Nat} (item : ItemInUse s)
    (taken : s.btI2sTaskHandler contiguous = some next) : ItemInUse next := by
  unfold Session.btI2sTaskHandler at taken
  cases task : s.task with
  | take =>
      simp only [task] at taken
      split at taken <;> cases taken
      exact ⟨TaskPoint.noConfusion, fun _ _ => item.returned (by simp [task]) (by simp [task])⟩
  | receive =>
      simp only [task] at taken
      split at taken
      · rename_i received
        cases taken
        exact ⟨fun _ => Ringbuffer.receiveUpTo_taken_ne_nil (by decide) received, fun write => absurd rfl write⟩
      · cases taken
        exact ⟨TaskPoint.noConfusion, fun _ _ => item.returned (by simp [task]) (by simp [task])⟩
  | write =>
      simp only [task] at taken
      cases taken
      exact ⟨TaskPoint.noConfusion, fun _ returnItem => absurd rfl returnItem⟩
  | returnItem =>
      simp only [task] at taken
      cases taken
      exact ⟨TaskPoint.noConfusion, fun _ _ => rfl⟩
  | underflow =>
      simp only [task] at taken
      cases taken
      exact ⟨TaskPoint.noConfusion, fun _ _ => item.returned (by simp [task]) (by simp [task])⟩

theorem of_leaves (item : ItemInUse s) (leaves : LeavesConsumer s next) : ItemInUse next := by
  refine ⟨?_, ?_⟩
  · rw [leaves.task, leaves.taken]
    exact item.taken
  · rw [leaves.task, leaves.taken]
    exact item.returned

theorem step {label : SessionLabel} (item : ItemInUse s) (taken : s.step label = some next) : ItemInUse next := by
  cases label with
  | call data => exact item.of_leaves (LeavesConsumer.call taken)
  | writeRingbuf => exact item.of_leaves (LeavesConsumer.writeRingbuf taken)
  | btI2sTaskHandler contiguous => exact item.btI2sTaskHandler taken

end ItemInUse

theorem ItemInUse.reachable {pair : Session × History} (reached : deliveryMachine.Reachable pair) :
    ItemInUse pair.1 := by
  apply reached.recorded_invariant fun s _ => ItemInUse s
  · exact ⟨TaskPoint.noConfusion, fun _ _ => rfl⟩
  · intro s label next _ item _ taken
    exact item.step taken

/-- A recorded session keeps the gate. -/
theorem PrefetchGate.delivered {pair : Session × History} (reached : deliveryMachine.Reachable pair) :
    PrefetchGate pair.1 :=
  reached.recorded_invariant (fun s _ => PrefetchGate s) PrefetchGate.start fun _ _ _ _ gate _ taken => gate.step taken

/-- The history only grows and the producer adds nothing to the writes. -/
theorem Session.record_grows (s next : Session) (label : SessionLabel) (h : History) :
    h.acceptedBytes <+: (s.record label next h).acceptedBytes ∧ h.written <+: (s.record label next h).written ∧
      (label.isConsumer = false → (s.record label next h).written = h.written) := by
  cases label with
  | call data => exact ⟨List.prefix_rfl, List.prefix_rfl, fun _ => rfl⟩
  | writeRingbuf =>
      refine ⟨?_, List.prefix_rfl, fun _ => rfl⟩
      simp only [Session.record, History.acceptedBytes]
      split
      · rw [List.map_append, List.flatten_append]
        exact List.prefix_append _ _
      · exact List.prefix_rfl
  | btI2sTaskHandler contiguous =>
      refine ⟨List.prefix_rfl, ?_, fun producer => by cases producer⟩
      simp only [Session.record]
      split
      · exact List.prefix_append _ _
      · exact List.prefix_rfl

/-- The consumer has a token or receives, writes or returns an item. -/
def Session.Awake (s : Session) : Prop := s.i2sWriteSemaphore = true ∨ s.task ≠ .take ∧ s.task ≠ .underflow

theorem Session.Awake.not_parked {s : Session} (awake : s.Awake) : ¬ s.Parked := by
  rintro ⟨task, token⟩
  rcases awake with given | ⟨notTake, _⟩
  · rw [token] at given
    cases given
  · exact notTake task

/-- The bytes are accepted and the consumer is awake until it has written them. -/
structure Working (bytes : List UInt8) (pair : Session × History) : Prop where
  reached : deliveryMachine.Reachable pair
  accepted : bytes <+: pair.2.acceptedBytes
  running : pair.1.Awake ∨ bytes <+: pair.2.written

/-- Each byte takes at most three steps of the consumer. -/
def remaining (bytes : List UInt8) (pair : Session × History) : Nat :=
  3 * (bytes.length - pair.2.written.length) +
    match pair.1.task with
    | .take | .returnItem => 2
    | .receive => 1
    | .write | .underflow => 0

theorem remaining_le (bytes : List UInt8) (pair : Session × History) :
    remaining bytes pair ≤ 3 * (bytes.length - pair.2.written.length) + 2 := by
  unfold remaining
  cases pair.1.task <;> simp only <;> omega

namespace Working

variable {bytes : List UInt8} {pair after : Session × History} {label : SessionLabel}

theorem conserved (working : Working bytes pair) :
    pair.2.acceptedBytes = pair.2.written ++ (pair.1.held ++ pair.1.ringbufI2s.waiting) :=
  Pipe.sent_eq (delivery_refines_pipe working.reached)

/-- As many written bytes as wanted are the wanted bytes. -/
theorem written_of_length (working : Working bytes pair) (enough : bytes.length ≤ pair.2.written.length) :
    bytes <+: pair.2.written := by
  apply List.prefix_of_prefix_length_le working.accepted _ enough
  rw [working.conserved]
  exact List.prefix_append _ _

/-- A receive that finds nothing follows the write of the last accepted byte. -/
theorem written_of_refused {contiguous : Nat} (working : Working bytes pair) (task : pair.1.task = .receive)
    (refused : pair.1.ringbufI2s.receiveUpTo itemSizeUpto contiguous = none) : bytes <+: pair.2.written := by
  have returned := (ItemInUse.reachable working.reached).returned (by simp [task]) (by simp [task])
  have accepted := working.accepted
  rw [working.conserved, Ringbuffer.receiveUpTo_none returned refused, Session.held, if_neg (by simp [task]),
    List.append_nil, List.append_nil] at accepted
  exact accepted

theorem stays (written : bytes <+: pair.2.written) (taken : deliveryMachine.step pair label = some after) :
    bytes <+: after.2.written := by
  obtain ⟨_, recorded⟩ := Machine.recorded_step_iff.mp taken
  rw [recorded]
  exact written.trans (Session.record_grows _ _ label _).2.1

/-- A producer step leaves the consumer where it is. -/
theorem of_producer (producer : label.isConsumer = false) (taken : deliveryMachine.step pair label = some after) :
    LeavesConsumer pair.1 after.1 ∧ after.2.written = pair.2.written := by
  obtain ⟨moved, recorded⟩ := Machine.recorded_step_iff.mp taken
  have written := (Session.record_grows pair.1 after.1 label pair.2).2.2 producer
  rw [← recorded] at written
  cases label with
  | call data => exact ⟨.call moved, written⟩
  | writeRingbuf => exact ⟨.writeRingbuf moved, written⟩
  | btI2sTaskHandler contiguous => cases producer

/-- A token waits only for a consumer at its take. -/
theorem task_of_token (working : Working bytes pair) (token : pair.1.i2sWriteSemaphore = true) :
    pair.1.task = .take := ((PrefetchGate.delivered working.reached).given token).1

/-- An awake consumer takes its token, writes its item, returns it or asks for the next one. -/
theorem of_consumer {contiguous : Nat} (working : Working bytes pair) (unwritten : ¬ bytes <+: pair.2.written)
    (taken : deliveryMachine.step pair (.btI2sTaskHandler contiguous) = some after) :
    pair.1.task = .write ∧ after.1.task = .returnItem ∧ pair.2.written.length < after.2.written.length ∨
      (pair.1.task = .take ∨ pair.1.task = .returnItem) ∧ after.1.task = .receive ∧
        after.2.written = pair.2.written ∨
      pair.1.task = .receive ∧ after.1.task = .write ∧ after.2.written = pair.2.written := by
  obtain ⟨moved, recorded⟩ := Machine.recorded_step_iff.mp taken
  have running := working.running.resolve_right unwritten
  change pair.1.btI2sTaskHandler contiguous = some after.1 at moved
  unfold Session.btI2sTaskHandler at moved
  have same (notWrite : pair.1.task ≠ .write) : after.2.written = pair.2.written := by
    rw [recorded]
    exact if_neg notWrite
  cases task : pair.1.task with
  | take =>
      simp only [task, Option.ite_none_right_eq_some, Option.some.injEq] at moved
      exact .inr (.inl ⟨.inl rfl, by rw [← moved.2], same (by simp [task])⟩)
  | underflow =>
      rcases running with token | ⟨_, notUnderflow⟩
      · simp [working.task_of_token token] at task
      · exact absurd task notUnderflow
  | write =>
      have item := (ItemInUse.reachable working.reached).taken task
      have grown : after.2.written = pair.2.written ++ pair.1.ringbufI2s.taken := by
        rw [recorded]
        exact if_pos task
      simp only [task, Option.some.injEq] at moved
      have some_bytes := List.length_pos_of_ne_nil item
      refine .inl ⟨rfl, by rw [← moved], ?_⟩
      rw [grown, List.length_append]
      omega
  | returnItem =>
      simp only [task, Option.some.injEq] at moved
      exact .inr (.inl ⟨.inr rfl, by rw [← moved], same (by simp [task])⟩)
  | receive =>
      simp only [task] at moved
      split at moved
      · rw [Option.some.injEq] at moved
        exact .inr (.inr ⟨rfl, by rw [← moved], same (by simp [task])⟩)
      · rename_i refused
        exact absurd (working.written_of_refused task refused) unwritten

theorem kept (working : Working bytes pair) (taken : deliveryMachine.step pair label = some after) :
    Working bytes after := by
  have grows := Session.record_grows pair.1 after.1 label pair.2
  rw [← (Machine.recorded_step_iff.mp taken).2] at grows
  refine ⟨.step working.reached label trivial taken, working.accepted.trans grows.1, ?_⟩
  by_cases written : bytes <+: pair.2.written
  · exact .inr (stays written taken)
  · have running := working.running.resolve_right written
    have leaves (producer : label.isConsumer = false) : after.1.Awake := by
      obtain ⟨leaves, _⟩ := of_producer producer taken
      unfold Session.Awake
      rw [leaves.task]
      exact running.imp_left leaves.token
    cases label with
    | call data => exact .inl (leaves rfl)
    | writeRingbuf => exact .inl (leaves rfl)
    | btI2sTaskHandler contiguous =>
        rcases working.of_consumer written taken with ⟨_, task, _⟩ | ⟨_, task, _⟩ | ⟨_, task, _⟩ <;>
          exact .inl (.inr (by simp [task]))

theorem moves (working : Working bytes pair) (taken : deliveryMachine.step pair label = some after) :
    bytes <+: after.2.written ∨ remaining bytes after + label.isConsumer.toNat ≤ remaining bytes pair := by
  by_cases written : bytes <+: pair.2.written
  · exact .inl (stays written taken)
  · apply Or.inr
    have short : pair.2.written.length < bytes.length := by
      by_contra enough
      exact written (working.written_of_length (Nat.le_of_not_lt enough))
    cases label with
    | call data | writeRingbuf =>
        obtain ⟨leaves, same⟩ := of_producer rfl taken
        simp only [remaining, leaves.task, same, SessionLabel.isConsumer, Bool.toNat_false]
        exact Nat.le_refl _
    | btI2sTaskHandler contiguous =>
        rcases working.of_consumer written taken with
          ⟨before, now, grown⟩ | ⟨before | before, now, same⟩ | ⟨before, now, same⟩
        · simp only [remaining, before, now, SessionLabel.isConsumer, Bool.toNat_true]
          omega
        · simp only [remaining, before, now, same, SessionLabel.isConsumer, Bool.toNat_true]
          omega
        · simp only [remaining, before, now, same, SessionLabel.isConsumer, Bool.toNat_true]
          omega
        · simp only [remaining, before, now, same, SessionLabel.isConsumer, Bool.toNat_true]
          omega

theorem advances (bytes : List UInt8) :
    deliveryMachine.Advances (Working bytes) (fun pair => bytes <+: pair.2.written) SessionLabel.isConsumer
      (remaining bytes) where
  kept _ _ _ working taken := working.kept taken
  stays _ _ _ _ written taken := stays written taken
  moves _ _ _ working taken := working.moves taken

/-- An awake consumer always has a next step. -/
theorem enabled (working : Working bytes pair) (unwritten : ¬ bytes <+: pair.2.written) (contiguous : Nat) :
    ∃ after, deliveryMachine.step pair (.btI2sTaskHandler contiguous) = some after := by
  have running := working.running.resolve_right unwritten
  suffices moves : ∃ next, pair.1.btI2sTaskHandler contiguous = some next by
    obtain ⟨next, moved⟩ := moves
    exact ⟨(next, pair.1.record (.btI2sTaskHandler contiguous) next pair.2),
      Machine.recorded_step_iff.mpr ⟨moved, rfl⟩⟩
  unfold Session.btI2sTaskHandler
  cases task : pair.1.task with
  | take =>
      have token : pair.1.i2sWriteSemaphore = true := running.resolve_right fun inLoop => inLoop.1 task
      simp only [token, if_true]
      exact ⟨_, rfl⟩
  | write | returnItem | underflow => exact ⟨_, rfl⟩
  | receive =>
      simp only
      split
      · exact ⟨_, rfl⟩
      · exact ⟨_, rfl⟩

end Working

/-- Three steps of the consumer for each byte that is held or waits write them all. -/
theorem Working.written_of_steps {s later : Session} {h after : History} {labels : List SessionLabel}
    (working : Working h.acceptedBytes (s, h))
    (finished : deliveryMachine.run (s, h) labels = some (later, after))
    (enough : 3 * (s.held ++ s.ringbufI2s.waiting).length ≤ labels.countP SessionLabel.isConsumer) :
    h.acceptedBytes <+: after.written := by
  have atEnd := (Working.advances h.acceptedBytes).holds_run working finished
  have conserved := congrArg List.length working.conserved
  rw [List.length_append] at conserved
  by_contra unwritten
  have used := ((Working.advances h.acceptedBytes).run working finished).resolve_left unwritten
  have short : after.written.length < h.acceptedBytes.length := by
    by_contra long
    exact unwritten (atEnd.written_of_length (Nat.le_of_not_lt long))
  have phase : remaining h.acceptedBytes (s, h) ≤ 3 * (h.acceptedBytes.length - h.written.length) + 2 :=
    remaining_le h.acceptedBytes (s, h)
  have rest : 3 * (h.acceptedBytes.length - after.written.length) ≤ remaining h.acceptedBytes (later, after) :=
    Nat.le_add_right _ _
  simp only at conserved
  omega

/-- An awake consumer writes every byte accepted so far, whatever the producer does meanwhile. -/
theorem written_within {s later : Session} {h after : History} {labels : List SessionLabel}
    (reached : deliveryMachine.Reachable (s, h)) (awake : s.Awake)
    (finished : deliveryMachine.run (s, h) labels = some (later, after)) :
    (3 * (s.held ++ s.ringbufI2s.waiting).length ≤ labels.countP SessionLabel.isConsumer →
      h.acceptedBytes <+: after.written) ∧
    (h.acceptedBytes <+: after.written ∨
      ∀ contiguous, ∃ next, deliveryMachine.step (later, after) (.btI2sTaskHandler contiguous) = some next) := by
  have working : Working h.acceptedBytes (s, h) := ⟨reached, List.prefix_rfl, .inl awake⟩
  have atEnd := (Working.advances h.acceptedBytes).holds_run working finished
  refine ⟨working.written_of_steps finished, ?_⟩
  by_cases written : h.acceptedBytes <+: after.written
  · exact .inl written
  · exact .inr (atEnd.enabled written)

/-- A byte in a drained ring is written while the next call begins. -/
theorem written_within_one_byte : ∃ (s later : Session) (h after : History), s.ringbufI2s.waiting = [1] ∧
    later.point = .send ∧ h.acceptedBytes <+: after.written ∧ (h.acceptedBytes <+: after.written ∨
      ∀ contiguous, ∃ next, deliveryMachine.step (later, after) (.btI2sTaskHandler contiguous) = some next) := by
  obtain ⟨packet, size⟩ : ∃ packet : List UInt8, packet.length = 12288 :=
    ⟨List.replicate _ 0, List.length_replicate⟩
  let awake : Session := { prefetched packet size with i2sWriteSemaphore := false, task := .receive }
  let drained : Session := { awake with ringbufI2s := Ringbuffer.empty }
  let s : Session := { drained with ringbufI2s := ⟨[1], [], by decide⟩, data := [1], done := true, result := 1 }
  have woken : sessionMachine.Reachable awake := (woken_reached packet size).mono fun _ _ _ => trivial
  have empty : sessionMachine.Reaches (fun _ _ => True) awake drained := awake.drain rfl rfl fun _ _ => trivial
  have sent : sessionMachine.Reaches (fun _ _ => True) drained s :=
    drained.wholeCall_reaches [1] rfl (fun _ => trivial) fun _ => trivial
  obtain ⟨h, recorded⟩ : ∃ h, deliveryMachine.Reachable (s, h) :=
    ((woken.trans empty).trans sent).recorded History.empty
  have finished : deliveryMachine.run (s, h) [.btI2sTaskHandler 1, .call [2], .btI2sTaskHandler 0, .writeRingbuf,
      .btI2sTaskHandler 0] = some ({ drained with point := .send, data := [2], done := false, result := 1 },
        { h with issued := h.issued ++ [[2]], written := h.written ++ [1] }) := rfl
  have within := written_within recorded (.inr ⟨TaskPoint.noConfusion, TaskPoint.noConfusion⟩) finished
  exact ⟨s, _, h, _, rfl, rfl, within.1 (Nat.le_refl 3), within.2⟩

end DesktopCube.Audio
