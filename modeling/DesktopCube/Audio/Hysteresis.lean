import DesktopCube.Audio.Stall

namespace DesktopCube.Audio
open Transition RingBuffer

namespace Session

/-- The consumer takes the token, or receives and reacts before any other task runs. -/
def wholeIteration (s : Session) (contiguous : Nat) : Option Session :=
  match s.task with
  | .take =>
      if s.i2sWriteSemaphore then some { s with i2sWriteSemaphore := false, task := .receive }
      else none
  | .receive =>
      match s.ringbufI2s.receiveUpTo itemSizeUpto contiguous with
      | some ring => some { s with ringbufI2s := ring.returnItem }
      | none => some { s with ringbufferMode := .prefetching, task := .take }
  | .write | .returnItem | .underflow => none

end Session

/-- A label names a call with its packet or an iteration of the consumer. -/
inductive WholeLabel where
  | writeRingbuf (data : List UInt8)
  | btI2sTaskHandler (contiguous : Nat)

def Session.wholeStep (s : Session) : WholeLabel → Option Session
  | .writeRingbuf data => if s.point = .idle then some (s.wholeCall data) else none
  | .btI2sTaskHandler contiguous => s.wholeIteration contiguous

/-- The session whose calls and iterations do not overlap. -/
def wholeMachine : Machine Session WholeLabel := ⟨btI2sTaskStartUp, Session.wholeStep⟩

/-- No call returns the size of its packet. -/
def Refused (s : Session) : WholeLabel → Prop
  | .writeRingbuf data => (s.wholeCall data).result ≠ data.length
  | .btI2sTaskHandler _ => True

namespace Session

variable {s next : Session} {data : List UInt8} {contiguous : Nat}

/-- The steps of an uninterrupted iteration compute the whole iteration. -/
theorem run_wholeIteration (taken : s.wholeIteration contiguous = some next) :
    ∃ count, sessionMachine.run s (List.replicate count (.btI2sTaskHandler contiguous)) = some next := by
  unfold wholeIteration at taken
  cases task : s.task with
  | take =>
      simp only [task] at taken
      refine ⟨1, ?_⟩
      rw [List.replicate_one, Machine.run_singleton]
      simpa only [sessionMachine, step, btI2sTaskHandler, task] using taken
  | receive =>
      simp only [task] at taken
      split at taken
      · rename_i ring received
        cases taken
        refine ⟨3, ?_⟩
        simp [Machine.run, sessionMachine, step, btI2sTaskHandler, List.replicate, task, received]
      · rename_i received
        cases taken
        refine ⟨2, ?_⟩
        simp [Machine.run, sessionMachine, step, btI2sTaskHandler, List.replicate, task, received]
  | write | returnItem | underflow =>
      simp only [task] at taken
      cases taken

theorem wholeStep_writeRingbuf :
    s.wholeStep (.writeRingbuf data) = some next ↔ s.point = .idle ∧ s.wholeCall data = next := by
  rw [wholeStep, Option.ite_none_right_eq_some, Option.some.injEq]

/-- A whole step is a path of the single accesses. -/
theorem wholeStep_reaches {label : WholeLabel} (taken : s.wholeStep label = some next) :
    sessionMachine.Reaches (fun _ _ => True) s next := by
  cases label with
  | writeRingbuf data =>
      obtain ⟨idle, rfl⟩ := wholeStep_writeRingbuf.mp taken
      exact wholeCall_reaches s data idle (fun _ => trivial) fun _ => trivial
  | btI2sTaskHandler contiguous =>
      obtain ⟨count, finished⟩ := run_wholeIteration taken
      exact Machine.run_reaches finished fun _ _ _ => trivial

/-- A session of whole calls and iterations is a session of single accesses. -/
theorem wholeMachine_refines (reached : wholeMachine.Reachable s) : sessionMachine.Reachable s :=
  reached.refines id rfl fun _ _ _ _ taken => wholeStep_reaches taken

/-- A call refuses its packet while the mode is DROPPING or when the ring has no room for it. -/
theorem wholeCall_cases (s : Session) (data : List UInt8) :
    ((s.wholeCall data).result = 0 ∧ (s.wholeCall data).ringbufI2s = s.ringbufI2s ∧
        ((s.wholeCall data).ringbufferMode = .dropping ∨
          s.ringbufI2s.itemsWaiting ≤ ringbufPrefetchWaterLevel)) ∨
      (s.ringbufferMode ≠ .dropping ∧ (s.wholeCall data).result = data.length ∧
        s.ringbufI2s.send data = some (s.wholeCall data).ringbufI2s) := by
  unfold wholeCall
  by_cases dropping : s.ringbufferMode = .dropping
  · left
    simp only [if_pos dropping, leaveDropping]
    split
    · rename_i low
      exact ⟨rfl, rfl, .inr low⟩
    · exact ⟨rfl, rfl, .inl dropping⟩
  · simp only [if_neg dropping, sendOrDrop]
    split
    · rename_i ring sent
      right
      refine ⟨dropping, ?_, ?_⟩
      · unfold openGate
        split <;> rfl
      · rw [sent]
        unfold openGate
        split <;> rfl
    · left
      exact ⟨rfl, rfl, .inl rfl⟩

end Session

namespace Session

variable {s next : Session} {data : List UInt8}

theorem wholeCall_taken (s : Session) (data : List UInt8) :
    (s.wholeCall data).ringbufI2s.taken = s.ringbufI2s.taken := by
  rcases s.wholeCall_cases data with ⟨_, same, _⟩ | ⟨_, _, sent⟩
  · rw [same]
  · exact (Ringbuffer.send_some sent).2

/-- Each iteration returns the item that it received. -/
theorem wholeStep_returned {label : WholeLabel} (returned : s.ringbufI2s.taken = [])
    (taken : s.wholeStep label = some next) : next.ringbufI2s.taken = [] := by
  cases label with
  | writeRingbuf data =>
      obtain ⟨_, rfl⟩ := wholeStep_writeRingbuf.mp taken
      rw [wholeCall_taken, returned]
  | btI2sTaskHandler contiguous =>
      change s.wholeIteration contiguous = some next at taken
      unfold wholeIteration at taken
      cases task : s.task with
      | take =>
          simp only [task, Option.ite_none_right_eq_some, Option.some.injEq] at taken
          obtain ⟨_, rfl⟩ := taken
          exact returned
      | receive =>
          simp only [task] at taken
          split at taken
          · cases taken
            rfl
          · cases taken
            exact returned
      | write | returnItem | underflow =>
          simp only [task] at taken
          cases taken

end Session

/-- The mode is DROPPING or the level is low from a refused packet to the next accepted one. -/
structure Draining (s : Session) : Prop where
  returned : s.ringbufI2s.taken = []
  low : s.ringbufferMode = .dropping ∨ s.ringbufI2s.itemsWaiting ≤ ringbufPrefetchWaterLevel

namespace Draining

variable {s next : Session} {data : List UInt8}

theorem refused (returned : s.ringbufI2s.taken = []) (refused : (s.wholeCall data).result ≠ data.length) :
    Draining (s.wholeCall data) := by
  constructor
  · rw [Session.wholeCall_taken, returned]
  · rcases s.wholeCall_cases data with ⟨_, same, low⟩ | ⟨_, whole, _⟩
    · rw [same]
      exact low
    · exact absurd whole refused

/-- A call that returns its size finds a low level. -/
theorem accepted (draining : Draining s) (positive : 0 < data.length)
    (whole : (s.wholeCall data).result = data.length) :
    s.ringbufI2s.itemsWaiting ≤ ringbufPrefetchWaterLevel := by
  rcases s.wholeCall_cases data with ⟨zero, _, _⟩ | ⟨notDropping, _, _⟩
  · omega
  · exact draining.low.resolve_left notDropping

/-- The consumer lowers the level and leaves DROPPING only with an empty ring. -/
theorem wholeIteration {contiguous : Nat} (draining : Draining s)
    (taken : s.wholeIteration contiguous = some next) : Draining next := by
  unfold Session.wholeIteration at taken
  cases task : s.task with
  | take =>
      simp only [task, Option.ite_none_right_eq_some, Option.some.injEq] at taken
      obtain ⟨_, rfl⟩ := taken
      exact ⟨draining.returned, draining.low⟩
  | receive =>
      simp only [task] at taken
      split at taken
      · rename_i ring received
        cases taken
        refine ⟨rfl, draining.low.imp id fun low => ?_⟩
        have split := congrArg List.length (Ringbuffer.receiveUpTo_some received).1
        rw [List.length_append] at split
        show ring.waiting.length ≤ _
        unfold Ringbuffer.itemsWaiting at low
        omega
      · rename_i refused
        cases taken
        refine ⟨draining.returned, .inr ?_⟩
        show s.ringbufI2s.waiting.length ≤ _
        rw [Ringbuffer.receiveUpTo_none draining.returned refused]
        exact Nat.zero_le _
  | write | returnItem | underflow =>
      simp only [task] at taken
      cases taken

theorem wholeStep {label : WholeLabel} (draining : Draining s) (meets : Refused s label)
    (taken : s.wholeStep label = some next) : Draining next := by
  cases label with
  | writeRingbuf data =>
      obtain ⟨_, rfl⟩ := Session.wholeStep_writeRingbuf.mp taken
      exact refused draining.returned meets
  | btI2sTaskHandler contiguous => exact draining.wholeIteration taken

end Draining

/-- After an overflow a packet is accepted only at the prefetch level or below. -/
theorem accepted_at_prefetch_level {s first before next : Session} {dropped data : List UInt8}
    (reached : wholeMachine.Reachable s) (positive : 0 < dropped.length)
    (called : wholeMachine.step s (.writeRingbuf dropped) = some first) (zero : first.result = 0)
    (refused : wholeMachine.Reaches Refused first before) (nonempty : 0 < data.length)
    (sent : wholeMachine.step before (.writeRingbuf data) = some next) (whole : next.result = data.length) :
    before.ringbufI2s.itemsWaiting ≤ ringbufPrefetchWaterLevel := by
  have returned : s.ringbufI2s.taken = [] := by
    apply reached.invariant fun s => s.ringbufI2s.taken = []
    · rfl
    · exact fun _ _ _ returned _ taken => Session.wholeStep_returned returned taken
  obtain ⟨_, rfl⟩ := Session.wholeStep_writeRingbuf.mp called
  obtain ⟨_, rfl⟩ := Session.wholeStep_writeRingbuf.mp sent
  have draining : Draining before := by
    apply refused.invariant Draining
    · exact .refused returned (by omega)
    · exact fun _ _ _ draining meets taken => draining.wholeStep meets taken
  exact draining.accepted nonempty whole

theorem wholeMachine_call (s : Session) (data : List UInt8) (idle : s.point = .idle) :
    wholeMachine.step s (.writeRingbuf data) = some (s.wholeCall data) :=
  Session.wholeStep_writeRingbuf.mpr ⟨idle, rfl⟩

/-- An iteration takes as many bytes as it asks for when they are there. -/
theorem Session.wholeIteration_receive {s : Session} (task : s.task = .receive) (returned : s.ringbufI2s.taken = [])
    (enough : itemSizeUpto ≤ s.ringbufI2s.waiting.length) :
    ∃ ring, s.wholeIteration itemSizeUpto = some { s with ringbufI2s := ring } ∧ ring.taken = [] ∧
      ring.waiting.length = s.ringbufI2s.waiting.length - itemSizeUpto := by
  obtain ⟨ring, received, _, waiting⟩ := Ringbuffer.receiveUpTo_limit returned (by decide) enough
  refine ⟨ring.returnItem, ?_, rfl, ?_⟩
  · simp only [wholeIteration, task, received]
  · rw [Ringbuffer.returnItem_waiting, waiting, List.length_drop]

/-- The consumer drains three items of an overflowed ring before a call ends the dropping. -/
theorem accepted_at_prefetch_level_drained : ∃ (packet : List UInt8) (before : Session),
    (before.wholeCall packet).result = packet.length ∧ before.ringbufI2s.itemsWaiting = 20256 ∧
      before.ringbufI2s.itemsWaiting ≤ ringbufPrefetchWaterLevel := by
  obtain ⟨packet, size⟩ : ∃ packet : List UInt8, packet.length = 12288 :=
    ⟨List.replicate _ 0, List.length_replicate⟩
  have item : itemSizeUpto = 1440 := rfl
  have level : ringbufPrefetchWaterLevel = 20480 := rfl
  have full : (overflowed packet size).ringbufI2s.waiting.length = 24576 := by
    show (packet ++ packet).length = 24576
    rw [List.length_append, size]
  have filled : wholeMachine.run btI2sTaskStartUp [.writeRingbuf packet, .writeRingbuf packet, .btI2sTaskHandler 0] =
      some { prefetched packet size with i2sWriteSemaphore := false, task := .receive } := by
    rw [Machine.run, wholeMachine_call _ packet rfl, Option.bind_some, Machine.run, wholeMachine_call _ packet rfl,
      Option.bind_some, prefetched_calls packet size]
    rfl
  have called : wholeMachine.step { prefetched packet size with i2sWriteSemaphore := false, task := .receive }
      (.writeRingbuf packet) = some (overflowed packet size) := by
    rw [wholeMachine_call _ packet rfl, overflowed_call]
  obtain ⟨one, first, oneTaken, oneWaiting⟩ :=
    Session.wholeIteration_receive (show (overflowed packet size).task = .receive from rfl) rfl (by omega)
  obtain ⟨two, second, twoTaken, twoWaiting⟩ := Session.wholeIteration_receive
    (show ({ overflowed packet size with ringbufI2s := one } : Session).task = .receive from rfl) oneTaken
    (show itemSizeUpto ≤ one.waiting.length by omega)
  change two.waiting.length = one.waiting.length - itemSizeUpto at twoWaiting
  obtain ⟨three, third, threeTaken, threeWaiting⟩ := Session.wholeIteration_receive
    (show ({ overflowed packet size with ringbufI2s := two } : Session).task = .receive from rfl) twoTaken
    (show itemSizeUpto ≤ two.waiting.length by omega)
  change three.waiting.length = two.waiting.length - itemSizeUpto at threeWaiting
  have low : three.itemsWaiting ≤ ringbufPrefetchWaterLevel := by
    show three.waiting.length ≤ _
    omega
  have dropped : ({ overflowed packet size with ringbufI2s := three } : Session).wholeCall packet =
      { overflowed packet size with ringbufferMode := .processing, ringbufI2s := three } := by
    simp [Session.wholeCall, Session.leaveDropping, Session.finish, overflowed, low]
  have left : wholeMachine.step { overflowed packet size with ringbufI2s := three } (.writeRingbuf packet) =
      some { overflowed packet size with ringbufferMode := .processing, ringbufI2s := three } := by
    rw [wholeMachine_call _ packet rfl, dropped]
  have refused : wholeMachine.Reaches Refused (overflowed packet size)
      { overflowed packet size with ringbufferMode := .processing, ringbufI2s := three } := by
    refine .step (.step (.step (.step .refl (.btI2sTaskHandler itemSizeUpto) trivial first)
      (.btI2sTaskHandler itemSizeUpto) trivial second) (.btI2sTaskHandler itemSizeUpto) trivial third)
      (.writeRingbuf packet) ?_ left
    rw [Refused, dropped, size]
    exact Nat.zero_ne_add_one 12287
  obtain ⟨ring, room⟩ : ∃ ring, three.send packet = some ring := by
    refine ⟨_, dif_pos ?_⟩
    rw [threeTaken, List.length_nil, size, threeWaiting, twoWaiting, oneWaiting, full]
    decide
  have whole : (({ overflowed packet size with ringbufferMode := .processing, ringbufI2s := three } :
      Session).wholeCall packet).result = packet.length := by
    simp [Session.wholeCall, Session.sendOrDrop, Session.openGate, Session.returnDone, Session.finish, overflowed,
      room]
  refine ⟨packet, { overflowed packet size with ringbufferMode := .processing, ringbufI2s := three }, whole, ?_, ?_⟩
  · show three.waiting.length = 20256
    omega
  · exact accepted_at_prefetch_level (Machine.run_reaches filled fun _ _ _ => trivial) (by omega) called rfl refused
      (by omega) (wholeMachine_call _ packet rfl) whole

end DesktopCube.Audio
