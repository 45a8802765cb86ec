import DesktopCube.Avrc.Registration
import DesktopCube.Library.BoundedQueue

namespace DesktopCube.Avrc
open Transition BoundedQueue

/-- Messages of other callbacks wait in the same queue. -/
inductive CtMessage where
  | ct (event : CtEvent)
  | other
  deriving DecidableEq

/-- The peer with the work queue of the controller and the messages that the queue refused. -/
structure Exchange where
  connected : Bool
  registered : UInt8 → Nat
  asked : Nat
  queue : Queue CtMessage 10
  peerRnCap : UInt16
  answered : Option UInt16
  lost : UInt8 → Nat
  lostAnswers : Nat

def Exchange.start : Exchange := ⟨false, fun _ => 0, 0, Queue.empty, 0, none, fun _ => 0, 0⟩

def CtEvent.answer : CtEvent → Option UInt16
  | .getRnCapabilitiesRsp bits => some bits
  | .connectionState _ | .passthroughRsp | .metadataRsp | .changeNotify _ | .remoteFeatures | .other _ => none

namespace Exchange

/-- The peer answers a question and notifies a registration only once. -/
def mayReport (x : Exchange) : CtEvent → Bool
  | .connectionState connected => connected == !x.connected
  | .changeNotify eventId => 0 < x.registered eventId
  | .getRnCapabilitiesRsp _ => 0 < x.asked
  | .passthroughRsp | .metadataRsp | .remoteFeatures | .other _ => true

/-- A connection of the peer starts and ends without registrations. -/
def leavePeer (x : Exchange) : CtEvent → Exchange
  | .connectionState true =>
      { x with connected := true, answered := none, lost := fun _ => 0, lostAnswers := 0 }
  | .connectionState false => { x with connected := false, registered := fun _ => 0, asked := 0 }
  | .changeNotify eventId =>
      { x with registered := fun id => if id = eventId then x.registered id - 1 else x.registered id }
  | .getRnCapabilitiesRsp _ => { x with asked := x.asked - 1 }
  | .passthroughRsp | .metadataRsp | .remoteFeatures | .other _ => x

def lose (x : Exchange) : CtEvent → Exchange
  | .changeNotify eventId =>
      { x with lost := fun id => if id = eventId then x.lost id + 1 else x.lost id }
  | .getRnCapabilitiesRsp _ => { x with lostAnswers := x.lostAnswers + 1 }
  | .connectionState _ | .passthroughRsp | .metadataRsp | .remoteFeatures | .other _ => x

/-- The callback drops a message without memory or room. -/
def dispatch (x : Exchange) (message : CtMessage) (allocated : Bool) : Option (Queue CtMessage 10) :=
  if allocated then x.queue.send message else none

/-- The stack calls `bt_app_rc_ct_cb`. -/
def report (x : Exchange) (event : CtEvent) (allocated : Bool) : Exchange :=
  match x.dispatch (.ct event) allocated with
  | some queue => { x.leavePeer event with queue := queue }
  | none => (x.leavePeer event).lose event

/-- A peer that is not connected receives no command. -/
def send (x : Exchange) (commands : List Command) : Exchange :=
  if x.connected then
    { x with
      asked := x.asked + commands.countP Command.asksCapabilities
      registered := fun id => x.registered id + (commands.filterMap Command.eventId).count id }
  else x

/-- `BtAppTask` handles a message of the controller. -/
def handle (test : UInt16 → UInt8 → Bool) (x : Exchange) (event : CtEvent) (queue : Queue CtMessage 10) :
    Exchange :=
  let (peerRnCap, commands) := btAvHdlAvrcCtEvt test x.peerRnCap event
  { x with queue := queue, peerRnCap := peerRnCap, answered := event.answer.or x.answered }.send commands

end Exchange

inductive ExchangeLabel where
  | report (event : CtEvent) (allocated : Bool)
  | other (allocated : Bool)
  | handle

def Exchange.step (test : UInt16 → UInt8 → Bool) (x : Exchange) (label : ExchangeLabel) : Option Exchange :=
  match label with
  | .report event allocated => if x.mayReport event then some (x.report event allocated) else none
  | .other allocated => some { x with queue := (x.dispatch .other allocated).getD x.queue }
  | .handle =>
      match x.queue.receive with
      | some (.ct event, queue) => some (x.handle test event queue)
      | some (.other, queue) => some { x with queue := queue }
      | none => none

def exchangeMachine (test : UInt16 → UInt8 → Bool) : Machine Exchange ExchangeLabel :=
  ⟨Exchange.start, Exchange.step test⟩

/-- The queue takes each connection report and the peer reconnects after its disconnection is handled. -/
def Settled (x : Exchange) : ExchangeLabel → Prop
  | .report (.connectionState connected) allocated =>
      allocated = true ∧ x.queue.HasRoom ∧ (connected = true → .ct (.connectionState false) ∉ x.queue.items)
  | .report _ _ | .other _ | .handle => True

instance (x : Exchange) (label : ExchangeLabel) : Decidable (Settled x label) :=
  match label with
  | .report (.connectionState connected) allocated => inferInstanceAs
      (Decidable (allocated = true ∧ x.queue.HasRoom ∧ (connected = true → _ ∉ x.queue.items)))
  | .report .passthroughRsp _ | .report .metadataRsp _ | .report (.changeNotify _) _ | .report .remoteFeatures _
  | .report (.getRnCapabilitiesRsp _) _ | .report (.other _) _ | .other _ | .handle => isTrue trivial

namespace CtMessage

/-- The message neither concerns the connection nor answers the controller. -/
def quiet : CtMessage → Bool
  | .ct (.connectionState _) | .ct (.changeNotify _) | .ct (.getRnCapabilitiesRsp _) => false
  | .ct .passthroughRsp | .ct .metadataRsp | .ct .remoteFeatures | .ct (.other _) | .other => true

def isAnswer : CtMessage → Bool
  | .ct event => event.isResponse
  | .other => false

end CtMessage

/-- Each token of a connected peer is with the peer, in the queue or lost. -/
structure Online (test : UInt16 → UInt8 → Bool) (x : Exchange) : Prop where
  unbroken : .ct (.connectionState false) ∉ x.queue.items
  answers : x.asked + x.queue.items.count (.ct (.connectionState true)) +
    x.queue.items.countP CtMessage.isAnswer + x.lostAnswers + x.answered.isSome.toNat = 1
  tokens : ∀ eventId, x.registered eventId + x.queue.items.count (.ct (.changeNotify eventId)) +
    x.lost eventId = (x.answered.elim false fun bits => wanted test bits eventId).toNat
  record : ∀ bits, x.answered = some bits → x.peerRnCap = bits

/-- The queue of a disconnected peer ends with its disconnection and quiet messages. -/
structure Offline (x : Exchange) : Prop where
  registered : ∀ eventId, x.registered eventId = 0
  asked : x.asked = 0
  trailing : ∃ before after, x.queue.items = before ++ after ∧
    (before = [] ∨ before.getLast? = some (.ct (.connectionState false))) ∧ ∀ message ∈ after, message.quiet

/-- The tokens of a connected peer are conserved and a disconnected peer has none. -/
structure Conserved (test : UInt16 → UInt8 → Bool) (x : Exchange) : Prop where
  online : x.connected = true → Online test x
  offline : x.connected = false → Offline x

section Steps

variable {test : UInt16 → UInt8 → Bool} {x : Exchange} {message : CtMessage} {queue : Queue CtMessage 10}

theorem Exchange.dispatch_items {allocated : Bool} (sent : x.dispatch message allocated = some queue) :
    queue.items = x.queue.items ++ [message] := by
  unfold dispatch at sent
  split at sent
  · exact Queue.send_some sent
  · cases sent

/-- The other messages send no command. -/
theorem Exchange.handle_quiet {event : CtEvent} (quiet : (CtMessage.ct event).quiet = true) :
    x.handle test event queue = { x with queue := queue } := by
  cases event with
  | connectionState | changeNotify | getRnCapabilitiesRsp => cases quiet
  | passthroughRsp | metadataRsp | remoteFeatures | other =>
      show Exchange.send { x with queue := queue } [] = _
      simp [Exchange.send]

/-- Only a connection report changes the connection of the peer. -/
theorem Exchange.report_connected {event : CtEvent} {allocated : Bool} (other : event.connection = none) :
    (x.report event allocated).connected = x.connected := by
  unfold Exchange.report
  cases event with
  | connectionState => cases other
  | passthroughRsp | metadataRsp | changeNotify | remoteFeatures | getRnCapabilitiesRsp | other =>
      split <;> rfl

theorem Exchange.report_quiet {event : CtEvent} {allocated : Bool} (quiet : (CtMessage.ct event).quiet = true) :
    x.report event allocated = { x with queue := (x.dispatch (.ct event) allocated).getD x.queue } := by
  unfold Exchange.report
  cases event with
  | connectionState | changeNotify | getRnCapabilitiesRsp => cases quiet
  | passthroughRsp | metadataRsp | remoteFeatures | other =>
      split
      · rename_i sent
        rw [sent]
        rfl
      · rename_i refused
        rw [refused]
        rfl

/-- A disconnected peer is left alone by a handler. -/
theorem Exchange.handle_offline {event : CtEvent} (disconnected : x.connected = false) :
    (x.handle test event queue).connected = false ∧ (x.handle test event queue).registered = x.registered ∧
      (x.handle test event queue).asked = x.asked ∧ (x.handle test event queue).queue = queue := by
  simp [Exchange.handle, Exchange.send, disconnected]

/-- The queue takes a quiet message or refuses it. -/
theorem Exchange.dispatched (allocated : Bool) :
    ((x.dispatch message allocated).getD x.queue).items = x.queue.items ++ [message] ∨
      ((x.dispatch message allocated).getD x.queue).items = x.queue.items := by
  cases sent : x.dispatch message allocated with
  | none => exact .inr rfl
  | some queue => exact .inl (dispatch_items sent)

namespace CtMessage

theorem quiet_ne {first : CtMessage} (quiet : message.quiet = true) (loud : first.quiet = false) :
    message ≠ first := by
  rintro rfl
  rw [quiet] at loud
  cases loud

theorem not_isAnswer (quiet : message.quiet = true) : message.isAnswer = false := by
  cases message with
  | ct event => cases event <;> first | rfl | cases quiet
  | other => rfl

theorem count_quiet {first : CtMessage} (quiet : message.quiet = true) (loud : first.quiet = false) :
    List.count first [message] = 0 :=
  List.count_eq_zero_of_not_mem fun member => quiet_ne quiet loud (List.mem_singleton.mp member).symm

end CtMessage

namespace Online

/-- A quiet message changes no count. -/
theorem quiet (online : Online test x) (quiet : message.quiet = true)
    (items : queue.items = x.queue.items ++ [message] ∨ queue.items = x.queue.items) :
    Online test { x with queue := queue } := by
  rcases items with items | items
  · refine ⟨?_, ?_, ?_, online.record⟩
    · show _ ∉ queue.items
      rw [items, List.mem_append, List.mem_singleton, not_or]
      exact ⟨online.unbroken, fun same => CtMessage.quiet_ne quiet rfl same.symm⟩
    · show x.asked + queue.items.count _ + queue.items.countP _ + _ + _ = 1
      rw [items, List.count_append, List.countP_append, CtMessage.count_quiet quiet rfl,
        List.countP_singleton, CtMessage.not_isAnswer quiet]
      exact online.answers
    · intro eventId
      show x.registered eventId + queue.items.count _ + _ = _
      rw [items, List.count_append, CtMessage.count_quiet quiet rfl]
      exact online.tokens eventId
  · refine ⟨?_, ?_, ?_, online.record⟩
    · show _ ∉ queue.items
      rw [items]
      exact online.unbroken
    · show x.asked + queue.items.count _ + queue.items.countP _ + _ + _ = 1
      rw [items]
      exact online.answers
    · intro eventId
      show x.registered eventId + queue.items.count _ + _ = _
      rw [items]
      exact online.tokens eventId

/-- A reported notification is in the queue or lost. -/
theorem notify {eventId : UInt8} {allocated : Bool} (online : Online test x)
    (may : x.mayReport (.changeNotify eventId) = true) :
    Online test (x.report (.changeNotify eventId) allocated) := by
  have positive : 0 < x.registered eventId := by simpa only [Exchange.mayReport, decide_eq_true_eq] using may
  unfold Exchange.report
  cases sent : x.dispatch (.ct (.changeNotify eventId)) allocated with
  | some queue =>
      have items := Exchange.dispatch_items sent
      refine ⟨?_, ?_, ?_, online.record⟩
      · show _ ∉ queue.items
        rw [items]
        simpa using online.unbroken
      · show x.asked + queue.items.count _ + queue.items.countP _ + _ + _ = 1
        rw [items, List.count_append, List.countP_append]
        exact online.answers
      · intro id
        have token := online.tokens id
        show (if id = eventId then x.registered id - 1 else x.registered id) + queue.items.count _ + x.lost id =
          (x.answered.elim false fun bits => wanted test bits id).toNat
        rw [items, List.count_append, List.count_singleton]
        by_cases same : id = eventId
        · subst same
          simp only [if_true, beq_self_eq_true]
          omega
        · simp only [if_neg same, beq_iff_eq, CtMessage.ct.injEq, CtEvent.changeNotify.injEq, Ne.symm same,
            if_false]
          omega
  | none =>
      refine ⟨online.unbroken, online.answers, ?_, online.record⟩
      intro id
      have token := online.tokens id
      show (if id = eventId then x.registered id - 1 else x.registered id) + x.queue.items.count _ +
        (if id = eventId then x.lost id + 1 else x.lost id) =
          (x.answered.elim false fun bits => wanted test bits id).toNat
      by_cases same : id = eventId
      · subst same
        simp only [if_true]
        omega
      · simp only [if_neg same]
        omega

/-- The answer to the controller's question is in the queue or lost. -/
theorem response {bits : UInt16} {allocated : Bool} (online : Online test x)
    (may : x.mayReport (.getRnCapabilitiesRsp bits) = true) :
    Online test (x.report (.getRnCapabilitiesRsp bits) allocated) := by
  have positive : 0 < x.asked := by simpa only [Exchange.mayReport, decide_eq_true_eq] using may
  have answers := online.answers
  unfold Exchange.report
  cases sent : x.dispatch (.ct (.getRnCapabilitiesRsp bits)) allocated with
  | some queue =>
      have items := Exchange.dispatch_items sent
      refine ⟨?_, ?_, ?_, online.record⟩
      · show _ ∉ queue.items
        rw [items]
        simpa using online.unbroken
      · show x.asked - 1 + queue.items.count _ + queue.items.countP _ + _ + _ = 1
        rw [items, List.count_append, List.countP_append]
        simp only [List.count_singleton, List.countP_singleton, CtMessage.isAnswer, CtEvent.isResponse,
          beq_iff_eq, CtMessage.ct.injEq, reduceCtorEq, if_false, if_true]
        show x.asked - 1 + _ + _ + x.lostAnswers + x.answered.isSome.toNat = 1
        omega
      · intro eventId
        show x.registered eventId + queue.items.count _ + _ = _
        rw [items, List.count_append]
        exact online.tokens eventId
  | none =>
      refine ⟨online.unbroken, ?_, online.tokens, online.record⟩
      show x.asked - 1 + x.queue.items.count _ + x.queue.items.countP _ + (x.lostAnswers + 1) +
        x.answered.isSome.toNat = 1
      omega

/-- The disconnection is the last message that the controller waits for. -/
theorem disconnect (sent : x.dispatch (.ct (.connectionState false)) true = some queue) :
    Offline { x.leavePeer (.connectionState false) with queue := queue } := by
  refine ⟨fun _ => rfl, rfl, queue.items, [], (List.append_nil _).symm, .inr ?_, fun _ => ?_⟩
  · rw [Exchange.dispatch_items sent]
    exact List.getLast?_concat
  · exact fun member => absurd member List.not_mem_nil

/-- The controller asks for the capabilities of a new connection. -/
theorem handle_connect (online : Online test x) (connected : x.connected = true)
    (items : x.queue.items = .ct (.connectionState true) :: queue.items) :
    Online test (x.handle test (.connectionState true) queue) := by
  have answers := online.answers
  have unbroken := online.unbroken
  rw [items] at answers unbroken
  rw [List.count_cons_self, List.countP_cons_of_neg (by simp [CtMessage.isAnswer, CtEvent.isResponse])] at answers
  simp only [Exchange.handle, btAvHdlAvrcCtEvt, Exchange.send, connected, if_true, CtEvent.answer, Option.none_or]
  refine ⟨fun member => unbroken (List.mem_cons_of_mem _ member), ?_, ?_, online.record⟩
  · show x.asked + 1 + queue.items.count _ + queue.items.countP _ + x.lostAnswers + x.answered.isSome.toNat = 1
    omega
  · intro eventId
    have token := online.tokens eventId
    rw [items, List.count_cons_of_ne (by simp)] at token
    exact token

/-- A handled notification of a wanted event is registered again. -/
theorem handle_notify {eventId : UInt8} (online : Online test x) (connected : x.connected = true)
    (items : x.queue.items = .ct (.changeNotify eventId) :: queue.items) :
    Online test (x.handle test (.changeNotify eventId) queue) := by
  have answers := online.answers
  have unbroken := online.unbroken
  have notified := online.tokens eventId
  rw [items] at answers unbroken notified
  rw [List.count_cons_self] at notified
  rw [List.count_cons_of_ne (by simp),
    List.countP_cons_of_neg (by simp [CtMessage.isAnswer, CtEvent.isResponse])] at answers
  -- A waiting notification proves that the answer is handled and the event wanted.
  obtain ⟨bits, answered, wants⟩ : ∃ bits, x.answered = some bits ∧ wanted test bits eventId = true := by
    cases answered : x.answered with
    | none =>
        simp only [answered, Option.elim_none, Bool.toNat_false] at notified
        omega
    | some bits =>
        refine ⟨bits, rfl, Bool.toNat_eq_one.mp (Nat.le_antisymm (Bool.toNat_le _) ?_)⟩
        simp only [answered, Option.elim_some] at notified
        omega
  simp only [Exchange.handle, btAvHdlAvrcCtEvt, Exchange.send, connected, if_true, CtEvent.answer, Option.none_or,
    btAvNotifyEvtHandler_asks, btAvNotifyEvtHandler_events, online.record bits answered, wants]
  refine ⟨fun member => unbroken (List.mem_cons_of_mem _ member), answers, ?_,
    fun _ same => Option.some.inj (answered.symm.trans same)⟩
  intro id
  have token := online.tokens id
  rw [items] at token
  show x.registered id + [eventId].count id + queue.items.count _ + x.lost id =
    (x.answered.elim false fun bits => wanted test bits id).toNat
  by_cases same : id = eventId
  · subst same
    rw [List.count_cons_self] at token
    rw [List.count_singleton_self]
    omega
  · rw [List.count_cons_of_ne (by simpa using Ne.symm same)] at token
    rw [List.count_singleton, if_neg (by simpa using Ne.symm same)]
    exact token

/-- The handled answer registers each wanted event once. -/
theorem handle_response {bits : UInt16} (online : Online test x) (connected : x.connected = true)
    (items : x.queue.items = .ct (.getRnCapabilitiesRsp bits) :: queue.items) :
    Online test (x.handle test (.getRnCapabilitiesRsp bits) queue) := by
  have answers := online.answers
  have unbroken := online.unbroken
  rw [items] at answers unbroken
  rw [List.count_cons_of_ne (by simp), List.countP_cons_of_pos rfl] at answers
  have fresh : x.answered = none := by
    cases answered : x.answered with
    | none => rfl
    | some bits =>
        rw [answered, Option.isSome_some, Bool.toNat_true] at answers
        omega
  rw [fresh, Option.isSome_none, Bool.toNat_false] at answers
  have asks : (btAvHdlAvrcCtEvt test x.peerRnCap (.getRnCapabilitiesRsp bits)).2.countP
      Command.asksCapabilities = 0 := response_asks x.peerRnCap bits
  simp only [Exchange.handle, Exchange.send, connected, if_true, CtEvent.answer]
  refine ⟨fun member => unbroken (List.mem_cons_of_mem _ member), ?_, ?_, fun _ answered => ?_⟩
  · show x.asked + _ + queue.items.count _ + queue.items.countP _ + x.lostAnswers + 1 = 1
    rw [asks]
    omega
  · intro eventId
    have token := online.tokens eventId
    rw [items, List.count_cons_of_ne (by simp), fresh, Option.elim_none, Bool.toNat_false] at token
    show x.registered eventId + _ + queue.items.count _ + x.lost eventId = (wanted test bits eventId).toNat
    rw [response_events]
    omega
  · cases answered
    rfl

/-- A quiet message leaves the queue without a trace. -/
theorem drop (online : Online test x) (quiet : message.quiet = true)
    (items : x.queue.items = message :: queue.items) : Online test { x with queue := queue } := by
  have answers := online.answers
  have unbroken := online.unbroken
  rw [items] at answers unbroken
  rw [List.count_cons_of_ne (CtMessage.quiet_ne quiet rfl),
    List.countP_cons_of_neg (by simp [CtMessage.not_isAnswer quiet])] at answers
  refine ⟨fun member => unbroken (List.mem_cons_of_mem _ member), answers, ?_, online.record⟩
  intro eventId
  have token := online.tokens eventId
  rw [items, List.count_cons_of_ne (CtMessage.quiet_ne quiet rfl)] at token
  exact token

end Online

namespace Offline

theorem quiet (offline : Offline x) (quiet : message.quiet = true)
    (items : queue.items = x.queue.items ++ [message] ∨ queue.items = x.queue.items) :
    Offline { x with queue := queue } := by
  obtain ⟨before, after, split, last, calm⟩ := offline.trailing
  refine ⟨offline.registered, offline.asked, ?_⟩
  rcases items with items | items
  · refine ⟨before, after ++ [message], ?_, last, ?_⟩
    · show queue.items = _
      rw [items, split, List.append_assoc]
    · intro later member
      rcases List.mem_append.mp member with old | new
      · exact calm later old
      · exact List.mem_singleton.mp new ▸ quiet
  · exact ⟨before, after, items.trans split, last, calm⟩

/-- The oldest message leaves the queue of a disconnected peer. -/
theorem receive (offline : Offline x) (items : x.queue.items = message :: queue.items) :
    ∃ before after, queue.items = before ++ after ∧
      (before = [] ∨ before.getLast? = some (.ct (.connectionState false))) ∧ ∀ message ∈ after, message.quiet := by
  obtain ⟨before, after, split, last, calm⟩ := offline.trailing
  rw [items] at split
  cases before with
  | nil =>
      rw [List.nil_append] at split
      exact ⟨[], queue.items, rfl, .inl rfl,
        fun later member => calm later (split ▸ List.mem_cons_of_mem message member)⟩
  | cons first rest =>
      rw [List.cons_append, List.cons.injEq] at split
      refine ⟨rest, after, split.2, ?_, calm⟩
      cases rest with
      | nil => exact .inl rfl
      | cons second others =>
          rw [List.getLast?_cons_cons] at last
          exact .inr (last.resolve_left (List.cons_ne_nil _ _))

/-- A new connection starts without tokens once the last disconnection is handled. -/
theorem connect (offline : Offline x) (settled : .ct (.connectionState false) ∉ x.queue.items)
    (sent : x.dispatch (.ct (.connectionState true)) true = some queue) :
    Online test { x.leavePeer (.connectionState true) with queue := queue } := by
  obtain ⟨before, after, split, last, calm⟩ := offline.trailing
  have none : before = [] := by
    apply last.resolve_right
    intro broken
    apply settled
    rw [split]
    exact List.mem_append_left _ (List.mem_of_getLast? broken)
  subst none
  rw [List.nil_append] at split
  have items := Exchange.dispatch_items sent
  rw [split] at items
  have absent {first : CtMessage} (loud : first.quiet = false) : first ∉ after :=
    fun member => CtMessage.quiet_ne (calm first member) loud rfl
  refine ⟨?_, ?_, ?_, fun _ answered => by cases answered⟩
  · show _ ∉ queue.items
    rw [items, List.mem_append, List.mem_singleton, not_or]
    exact ⟨absent rfl, by simp⟩
  · have answers : after.countP CtMessage.isAnswer = 0 :=
      List.countP_eq_zero.mpr fun later member => by
        rw [CtMessage.not_isAnswer (calm later member)]
        exact Bool.false_ne_true
    show x.asked + queue.items.count _ + queue.items.countP _ + 0 + 0 = 1
    rw [items, List.count_append, List.countP_append, List.count_eq_zero_of_not_mem (absent rfl), answers,
      offline.asked]
    rfl
  · intro eventId
    show x.registered eventId + queue.items.count _ + 0 = 0
    rw [items, List.count_append, List.count_eq_zero_of_not_mem (absent rfl), offline.registered]
    rfl

end Offline

namespace Conserved

theorem start : Conserved test Exchange.start :=
  ⟨fun connected => Bool.noConfusion connected,
    fun _ => ⟨fun _ => rfl, rfl, [], [], rfl, .inl rfl, fun _ member => absurd member List.not_mem_nil⟩⟩

theorem of_online (online : Online test x) (connected : x.connected = true) : Conserved test x :=
  ⟨fun _ => online, fun disconnected => Bool.noConfusion (connected.symm.trans disconnected)⟩

theorem of_offline (offline : Offline x) (disconnected : x.connected = false) : Conserved test x :=
  ⟨fun connected => Bool.noConfusion (disconnected.symm.trans connected), fun _ => offline⟩

/-- A quiet message that comes or goes changes no token. -/
theorem enqueue (conserved : Conserved test x) (quiet : message.quiet = true)
    (items : queue.items = x.queue.items ++ [message] ∨ queue.items = x.queue.items) :
    Conserved test { x with queue := queue } :=
  ⟨fun connected => (conserved.online connected).quiet quiet items,
    fun disconnected => (conserved.offline disconnected).quiet quiet items⟩

theorem dequeue (conserved : Conserved test x) (quiet : message.quiet = true)
    (items : x.queue.items = message :: queue.items) : Conserved test { x with queue := queue } :=
  ⟨fun connected => (conserved.online connected).drop quiet items, fun disconnected =>
    have offline := conserved.offline disconnected
    ⟨offline.registered, offline.asked, offline.receive items⟩⟩

theorem report {event : CtEvent} {allocated : Bool} (conserved : Conserved test x)
    (settled : Settled x (.report event allocated)) (may : x.mayReport event = true) :
    Conserved test (x.report event allocated) := by
  cases event with
  | connectionState connected =>
      obtain ⟨rfl, room, handled⟩ := settled
      obtain ⟨queue, sent, _⟩ := Queue.send_of_room room (.ct (.connectionState connected))
      have taken : x.dispatch (.ct (.connectionState connected)) true = some queue := sent
      have turned : connected = !x.connected := beq_iff_eq.mp may
      simp only [Exchange.report, taken]
      cases connected with
      | true =>
          have disconnected : x.connected = false := by simpa using turned.symm
          exact of_online ((conserved.offline disconnected).connect (handled rfl) taken) rfl
      | false => exact of_offline (Online.disconnect taken) rfl
  | changeNotify eventId =>
      cases connected : x.connected with
      | true =>
          apply of_online ((conserved.online connected).notify may)
          rw [Exchange.report_connected rfl, connected]
      | false =>
          have none := (conserved.offline connected).registered eventId
          simp [Exchange.mayReport, none] at may
  | getRnCapabilitiesRsp bits =>
      cases connected : x.connected with
      | true =>
          apply of_online ((conserved.online connected).response may)
          rw [Exchange.report_connected rfl, connected]
      | false => simp [Exchange.mayReport, (conserved.offline connected).asked] at may
  | passthroughRsp | metadataRsp | remoteFeatures | other =>
      rw [Exchange.report_quiet rfl]
      exact conserved.enqueue rfl (Exchange.dispatched allocated)

theorem handle {event : CtEvent} (conserved : Conserved test x)
    (items : x.queue.items = .ct event :: queue.items) : Conserved test (x.handle test event queue) := by
  cases connected : x.connected with
  | true =>
      have online := conserved.online connected
      have still : (x.handle test event queue).connected = true := by
        simp [Exchange.handle, Exchange.send, connected]
      cases event with
      | connectionState state =>
          cases state with
          | true => exact of_online (online.handle_connect connected items) still
          | false => exact absurd (items ▸ List.mem_cons_self) online.unbroken
      | changeNotify eventId => exact of_online (online.handle_notify connected items) still
      | getRnCapabilitiesRsp bits => exact of_online (online.handle_response connected items) still
      | passthroughRsp | metadataRsp | remoteFeatures | other =>
          rw [Exchange.handle_quiet rfl]
          exact conserved.dequeue rfl items
  | false =>
      have offline := conserved.offline connected
      obtain ⟨still, registered, asked, taken⟩ := Exchange.handle_offline connected
      refine of_offline ⟨?_, ?_, ?_⟩ still
      · rw [registered]
        exact offline.registered
      · rw [asked]
        exact offline.asked
      · rw [taken]
        exact offline.receive items

theorem step {label : ExchangeLabel} {next : Exchange} (conserved : Conserved test x) (settled : Settled x label)
    (taken : x.step test label = some next) : Conserved test next := by
  cases label with
  | report event allocated =>
      simp only [Exchange.step, Option.ite_none_right_eq_some, Option.some.injEq] at taken
      obtain ⟨may, rfl⟩ := taken
      exact conserved.report settled may
  | other allocated =>
      simp only [Exchange.step, Option.some.injEq] at taken
      exact taken ▸ conserved.enqueue rfl (Exchange.dispatched allocated)
  | handle =>
      simp only [Exchange.step] at taken
      split at taken
      · rename_i event queue received
        cases taken
        exact conserved.handle (Queue.receive_some received)
      · rename_i queue received
        cases taken
        exact conserved.dequeue rfl (Queue.receive_some received)
      · cases taken

end Conserved

end Steps

/-- The label does not end the connection. -/
def ExchangeLabel.Connected : ExchangeLabel → Prop
  | .report (.connectionState _) _ => False
  | .report _ _ | .other _ | .handle => True

section Runs

variable {test : UInt16 → UInt8 → Bool} {x y : Exchange}

/-- No notification is found again within its connection. -/
theorem lost_le_step {label : ExchangeLabel} (within : label.Connected) (taken : x.step test label = some y)
    (eventId : UInt8) : x.lost eventId ≤ y.lost eventId := by
  cases label with
  | report event allocated =>
      simp only [Exchange.step, Option.ite_none_right_eq_some, Option.some.injEq] at taken
      obtain ⟨_, rfl⟩ := taken
      unfold Exchange.report
      cases event with
      | connectionState => exact within.elim
      | changeNotify notified =>
          split
          · exact Nat.le_refl _
          · show x.lost eventId ≤ if eventId = notified then x.lost eventId + 1 else x.lost eventId
            split
            · exact Nat.le_succ _
            · exact Nat.le_refl _
      | passthroughRsp | metadataRsp | remoteFeatures | getRnCapabilitiesRsp | other =>
          split <;> exact Nat.le_refl _
  | other allocated =>
      simp only [Exchange.step, Option.some.injEq] at taken
      exact taken ▸ Nat.le_refl _
  | handle =>
      simp only [Exchange.step] at taken
      split at taken
      · cases taken
        unfold Exchange.handle Exchange.send
        simp only
        split <;> exact Nat.le_refl _
      · cases taken
        exact Nat.le_refl _
      · cases taken

theorem lost_le (reached : (exchangeMachine test).Reaches (fun _ label => label.Connected) x y)
    (eventId : UInt8) : x.lost eventId ≤ y.lost eventId :=
  reached.invariant (fun y => x.lost eventId ≤ y.lost eventId) (Nat.le_refl _)
    fun _ _ _ le within taken => Nat.le_trans le (lost_le_step within taken eventId)

theorem connected_step {label : ExchangeLabel} (within : label.Connected) (taken : x.step test label = some y) :
    y.connected = x.connected := by
  cases label with
  | report event allocated =>
      simp only [Exchange.step, Option.ite_none_right_eq_some, Option.some.injEq] at taken
      obtain ⟨_, rfl⟩ := taken
      apply Exchange.report_connected
      cases event with
      | connectionState => exact within.elim
      | passthroughRsp | metadataRsp | changeNotify | remoteFeatures | getRnCapabilitiesRsp | other => rfl
  | other allocated =>
      simp only [Exchange.step, Option.some.injEq] at taken
      rw [← taken]
  | handle =>
      simp only [Exchange.step] at taken
      split at taken
      · cases taken
        unfold Exchange.handle Exchange.send
        simp only
        split <;> rfl
      · cases taken
        rfl
      · cases taken

/-- A path within a connection goes on with its settled steps. -/
theorem settled_of_connected (reached : (exchangeMachine test).Reaches (fun _ label => label.Connected) x y) :
    (exchangeMachine test).Reaches Settled x y ∧ y.connected = x.connected := by
  induction reached with
  | refl => exact ⟨.refl, rfl⟩
  | step _ label within taken ih =>
      refine ⟨.step ih.1 label ?_ taken, (connected_step within taken).trans ih.2⟩
      cases label with
      | report event allocated =>
          cases event with
          | connectionState => exact within.elim
          | passthroughRsp | metadataRsp | changeNotify | remoteFeatures | getRnCapabilitiesRsp | other => trivial
      | other | handle => trivial

theorem conserved_of_reaches (reached : (exchangeMachine test).Reaches Settled Exchange.start x) :
    Conserved test x :=
  reached.invariant (Conserved test) Conserved.start fun _ _ _ kept settled taken => kept.step settled taken

/-- Each wanted notification of a connected peer is registered, waiting or lost. -/
theorem tokens_conserved (reached : (exchangeMachine test).Reaches Settled Exchange.start x)
    (connected : x.connected = true) (eventId : UInt8) :
    x.registered eventId + x.queue.items.count (.ct (.changeNotify eventId)) + x.lost eventId =
      (x.answered.elim false fun bits => wanted test bits eventId).toNat :=
  ((conserved_of_reaches reached).online connected).tokens eventId

/-- A peer whose answer waits behind a lost event of another callback. -/
theorem tokens_conserved_answered : ∃ x : Exchange,
    x.answered = some 0x26 ∧ x.queue.items.length = 1 ∧
      x.registered rnTrackChange + x.queue.items.count (.ct (.changeNotify rnTrackChange)) +
        x.lost rnTrackChange = 1 := by
  have finished : (exchangeMachine fun bits eventId => bits.toNat.testBit eventId.toNat).checkedRun Settled
      Exchange.start [.report (.connectionState true) true, .handle, .other false,
        .report (.getRnCapabilitiesRsp 0x26) true, .handle, .report (.changeNotify rnTrackChange) true] =
      some _ := rfl
  exact ⟨_, rfl, rfl, tokens_conserved (Machine.checkedRun_reaches finished) rfl rnTrackChange⟩

/-- A notification that the queue refused once is never reported again in its connection. -/
theorem lost_notification_silent (reached : (exchangeMachine test).Reaches Settled Exchange.start x)
    (connected : x.connected = true) {eventId : UInt8} (lost : 0 < x.lost eventId)
    (within : (exchangeMachine test).Reaches (fun _ label => label.Connected) x y) :
    .ct (.changeNotify eventId) ∉ y.queue.items ∧ y.mayReport (.changeNotify eventId) = false := by
  obtain ⟨settled, still⟩ := settled_of_connected within
  have conserved := conserved_of_reaches (reached.trans settled)
  have token := (conserved.online (still.trans connected)).tokens eventId
  have bound := Bool.toNat_le (y.answered.elim false fun bits => wanted test bits eventId)
  have remains := lost_le within eventId
  constructor
  · intro waits
    have positive := List.count_pos_iff.mpr waits
    omega
  · have silent : y.registered eventId = 0 := by omega
    simp [Exchange.mayReport, silent]

/-- A track change that finds no memory. -/
theorem lost_notification_silent_track : ∃ x : Exchange,
    x.lost rnTrackChange = 1 ∧ x.registered rnPlayStatusChange = 0 ∧
      x.mayReport (.changeNotify rnTrackChange) = false := by
  have finished : (exchangeMachine fun bits eventId => bits.toNat.testBit eventId.toNat).checkedRun Settled
      Exchange.start [.report (.connectionState true) true, .handle,
        .report (.getRnCapabilitiesRsp 0x24) true, .handle, .report (.changeNotify rnTrackChange) false] =
      some _ := rfl
  exact ⟨_, rfl, rfl, (lost_notification_silent (Machine.checkedRun_reaches finished) rfl (by decide) .refl).2⟩

end Runs

end DesktopCube.Avrc
