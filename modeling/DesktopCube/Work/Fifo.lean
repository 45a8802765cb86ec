import DesktopCube.Work.Holding
import Mathlib.Data.List.Perm.Basic

namespace DesktopCube.Work
open Transition CMemory BoundedQueue

/-- The handler must see the bytes that `p_params` held at the call. -/
def Arguments.seen (arguments : Arguments) (memory : Memory) : Seen where
  cb := some arguments.pCback
  event := arguments.event
  param :=
    if arguments.paramLen = 0 then none
    else arguments.pParams.map fun address =>
      let held := memory.bytes address arguments.paramLen.toNat
      match arguments.pCopyCback with
      | some copy => copy held (fun offset => memory (address + offset)) arguments.paramLen
      | none => held
  attrText := none

/-- The handler of a metadata response must see a terminated copy of the text. -/
def CtReport.seen (report : CtReport) (memory : Memory) : Seen where
  cb := some .btAvHdlAvrcCtEvt
  event := .ct report.event
  param := some (memory.bytes report.param report.size)
  attrText :=
    if report.event = .metadataRsp then some (memory.bytes report.attrText report.attrLength ++ [0])
    else none

/-- The journal lists what the drafts promise, the results of the calls and the invocations. -/
structure Journal where
  promised : List Seen
  returned : List (Seen × Bool)
  invoked : List Seen

def Journal.empty : Journal := ⟨[], [], []⟩

/-- The calls that returned true, in the order of their sends. -/
def Journal.accepted (journal : Journal) : List Seen := (journal.returned.filter Prod.snd).map Prod.fst

/-- A call without a message returns false at once. -/
def Journal.enter (journal : Journal) (seen : Seen) (mallocOk : Bool) :
    Option (WorkCall × Heap Content) → Journal
  | none => journal
  | some (call, heap) =>
      match call.prepare mallocOk heap with
      | none => { journal with returned := journal.returned ++ [(seen, false)] }
      | some _ => { journal with promised := journal.promised ++ [seen] }

/-- A send returns the result of the queue. -/
def Journal.send (journal : Journal) (draft : Nat) (result : Bool) : Journal :=
  match journal.promised[draft]? with
  | none => journal
  | some seen =>
      { journal with
        promised := journal.promised.eraseIdx draft
        returned := journal.returned ++ [(seen, result)] }

/-- The journal notes what the callback sees that `BtAppTask` calls. -/
def Journal.invoke (journal : Journal) (heap : Heap Content) (msg : Msg) : Journal :=
  { journal with
    invoked := journal.invoked ++ ((btAppTaskHandler msg heap).1.map (Invocation.seen heap)).toList }

def Traffic.record (traffic : Traffic) (label : TrafficLabel) (_ : Traffic) (journal : Journal) : Journal :=
  match label with
  | .dispatch arguments mallocOk =>
      journal.enter (arguments.seen traffic.memory) mallocOk (traffic.entry label)
  | .rcCtCb report mallocOk =>
      journal.enter (report.seen traffic.memory) mallocOk (traffic.entry label)
  | .send draft => journal.send draft (btAppSendMsg traffic.drafts[draft]? traffic.core).1
  | .handle =>
      match traffic.core.handling with
      | none => journal
      | some msg => journal.invoke traffic.core.heap msg
  | .store _ _ | .receive => journal

/-- The machine with its journal. -/
def fifoMachine (memory : Memory) : Machine (Traffic × Journal) TrafficLabel :=
  (trafficMachine memory).recorded Journal.empty Traffic.record

theorem Journal.invoke_called {heap : Heap Content} {msg : Msg} (journal : Journal)
    (called : msg.sig = btAppSigWorkDispatch ∧ msg.cb.isSome) :
    journal.invoke heap msg = { journal with invoked := journal.invoked ++ [msg.seen heap] } := by
  rw [Journal.invoke, btAppTaskHandler_invokes called]
  rfl

/-- A received message stays among the messages. -/
theorem received_messages {core after : Core} (taken : core.receive = some after) :
    after.heap = core.heap ∧ after.messages = core.messages := by
  unfold Core.receive at taken
  split at taken
  · cases taken
  · rename_i idle
    obtain ⟨⟨msg, queue⟩, received, rfl⟩ := Option.map_eq_some_iff.mp taken
    refine ⟨rfl, ?_⟩
    rw [Core.messages, Core.messages, idle, Queue.receive_some received]
    rfl

/-- A direct call shows what its arguments promise. -/
theorem Arguments.call_seen (arguments : Arguments) (memory : Memory) (heap : Heap Content) :
    (arguments.call memory).seen heap = arguments.seen memory := by
  unfold WorkCall.seen Arguments.seen Arguments.call
  by_cases bare : arguments.paramLen = 0
  · simp only [if_pos bare]
  · cases given : arguments.pParams with
    | none => simp only [Option.map_none, if_neg bare]
    | some address =>
        cases rewritten : arguments.pCopyCback with
        | none => simp [if_neg bare, copiedParam, Memory.bytes]
        | some copy => simp [if_neg bare, copiedParam, Memory.bytes]

theorem ctCall_seen (event : CtEvent) (param : CtParam) (params : Params) (heap : Heap Content) :
    (ctCall event param params).seen heap =
      ⟨some .btAvHdlAvrcCtEvt, .ct event, some ((List.range param.size).map params.memory),
        params.attrText.bind (textAt heap)⟩ := by
  have positive : (param.size : Int) ≠ 0 := Int.natCast_ne_zero.mpr (Nat.ne_of_gt param.positive)
  unfold WorkCall.seen
  rw [if_neg (show ¬ (ctCall event param params).paramLen = 0 from positive)]
  rfl

/-- A call of `bt_app_rc_ct_cb` shows what its report promises and owns its text alone. -/
theorem CtReport.entry_seen {report : CtReport} {memory : Memory} {heap after : Heap Content} {call : WorkCall}
    {messages : List Msg} (holding : Holding heap messages)
    (entered : btAppRcCtCall report.event (report.ctParam memory) heap = some (call, after)) :
    call.pCback.isSome ∧ call.seen after = report.seen memory ∧ Holding after messages ∧
      (∀ msg ∈ messages, msg.seen after = msg.seen heap) ∧
      ∀ params text, call.pParams = some params → params.attrText = some text →
        after.contents text ≠ none ∧ text ∉ messages.flatMap (Msg.owned after) := by
  cases event : report.event with
  | metadataRsp =>
      rw [event] at entered
      cases entered
      obtain ⟨kept, owned, same⟩ := holding.malloc (.text ((report.ctParam memory).attrText ++ [0]))
      have block : (heap.malloc (.text ((report.ctParam memory).attrText ++ [0]))).contents heap.next =
          some (.text ((report.ctParam memory).attrText ++ [0])) := by
        rw [Heap.malloc_contents, Function.update_self]
      refine ⟨rfl, ?_, kept, same, ?_⟩
      · rw [ctCall_seen]
        simp only [CtReport.seen, event, if_true, Option.bind_some, textAt, block]
        rfl
      · intro params text given pointer
        cases given
        cases pointer
        rw [block, owned]
        exact ⟨Option.some_ne_none _, fun member => holding.live heap.next member heap.contents_next⟩
  | connectionState | passthroughRsp | changeNotify | remoteFeatures | getRnCapabilitiesRsp =>
      rw [event] at entered
      cases entered
      refine ⟨rfl, ?_, holding, fun _ _ => rfl, ?_⟩
      · rw [ctCall_seen]
        simp only [CtReport.seen, event, reduceCtorEq, if_false, Option.bind_none]
        rfl
      · intro params text given pointer
        cases given
        cases pointer
  | other code =>
      rw [event] at entered
      cases entered

/-- The messages show what the journal promises and continue its invocations. -/
structure Accounted (traffic : Traffic) (journal : Journal) : Prop where
  holding : Holding traffic.core.heap (traffic.core.messages ++ traffic.drafts)
  promised : traffic.drafts.map (Msg.seen traffic.core.heap) = journal.promised
  order : journal.invoked ++ traffic.core.messages.map (Msg.seen traffic.core.heap) = journal.accepted

namespace Accounted

variable {traffic next : Traffic} {journal : Journal}

theorem start (memory : Memory) : Accounted (Traffic.start memory) Journal.empty :=
  ⟨⟨fun _ member => absurd member List.not_mem_nil, fun _ member => absurd member List.not_mem_nil,
    List.nodup_nil⟩, rfl, rfl⟩

/-- A heap that keeps what the messages show keeps the account. -/
theorem frame {heap : Heap Content} (safe : Accounted traffic journal)
    (same : ∀ msg ∈ traffic.core.messages ++ traffic.drafts, msg.seen heap = msg.seen traffic.core.heap) :
    traffic.drafts.map (Msg.seen heap) = journal.promised ∧
      journal.invoked ++ traffic.core.messages.map (Msg.seen heap) = journal.accepted := by
  have drafts : traffic.drafts.map (Msg.seen heap) = traffic.drafts.map (Msg.seen traffic.core.heap) :=
    List.map_congr_left fun msg member => same msg (List.mem_append_right _ member)
  have messages : traffic.core.messages.map (Msg.seen heap) =
      traffic.core.messages.map (Msg.seen traffic.core.heap) :=
    List.map_congr_left fun msg member => same msg (List.mem_append_left _ member)
  rw [drafts, messages]
  exact ⟨safe.promised, safe.order⟩

/-- A call becomes a draft with a promise or returns false. -/
theorem enter {seen : Seen} {call : WorkCall} {heap : Heap Content} (safe : Accounted traffic journal)
    (mallocOk : Bool) (called : call.pCback.isSome) (shown : call.seen heap = seen)
    (holding : Holding heap (traffic.core.messages ++ traffic.drafts))
    (same : ∀ msg ∈ traffic.core.messages ++ traffic.drafts, msg.seen heap = msg.seen traffic.core.heap)
    (unowned : ∀ params text, call.pParams = some params → params.attrText = some text →
      heap.contents text ≠ none ∧
        text ∉ (traffic.core.messages ++ traffic.drafts).flatMap (Msg.owned heap)) :
    Accounted (traffic.enter mallocOk (some (call, heap))) (journal.enter seen mallocOk (some (call, heap))) := by
  cases prepared : call.prepare mallocOk heap with
  | none =>
      obtain ⟨promised, order⟩ := safe.frame same
      simp only [Traffic.enter, Journal.enter, prepared]
      refine ⟨holding, promised, order.trans ?_⟩
      simp [Journal.accepted]
  | some pair =>
      obtain ⟨msg, after⟩ := pair
      obtain ⟨kept, others, last⟩ := holding.prepare called prepared unowned
      rw [List.append_assoc] at kept
      obtain ⟨promised, order⟩ := safe.frame fun msg member => (others msg member).trans (same msg member)
      simp only [Traffic.enter, Journal.enter, prepared]
      refine ⟨kept, ?_, order⟩
      rw [List.map_append, promised, List.map_singleton, last, shown]

/-- A send moves the draft to the end of the queue or drops it. -/
theorem send {draft : Nat} {msg : Msg} (safe : Accounted traffic journal)
    (drafted : traffic.drafts[draft]? = some msg) :
    Accounted { traffic with core := (btAppSendMsg (some msg) traffic.core).2, drafts := traffic.drafts.eraseIdx draft }
      (journal.send draft (btAppSendMsg (some msg) traffic.core).1) := by
  have promise : journal.promised[draft]? = some (msg.seen traffic.core.heap) := by
    rw [← safe.promised, List.getElem?_map, drafted, Option.map_some]
  have erased : (traffic.drafts.eraseIdx draft).map (Msg.seen traffic.core.heap) =
      journal.promised.eraseIdx draft := by
    rw [← safe.promised, List.eraseIdx_eq_take_drop_succ, List.eraseIdx_eq_take_drop_succ,
      List.map_append, List.map_take, List.map_drop]
  have moved : (traffic.core.messages ++ traffic.drafts).Perm
      (msg :: (traffic.core.messages ++ traffic.drafts.eraseIdx draft)) := by
    obtain ⟨inside, rfl⟩ := List.getElem?_eq_some_iff.mp drafted
    exact ((List.getElem_cons_eraseIdx_perm inside).symm.append_left traffic.core.messages).trans
      List.perm_middle
  have holding := safe.holding.perm moved
  simp only [Journal.send, promise]
  rcases btAppSendMsg_cases msg traffic.core with ⟨queue, sent, result⟩ | ⟨_, result⟩
  · rw [result]
    have messages := InCustody.messages_send traffic.core sent traffic.core.heap
    have accepted : journal.accepted ++ [msg.seen traffic.core.heap] =
        journal.invoked ++ (traffic.core.messages ++ [msg]).map (Msg.seen traffic.core.heap) := by
      rw [← safe.order, List.map_append, List.map_singleton, List.append_assoc]
    refine ⟨?_, erased, ?_⟩
    · show Holding traffic.core.heap (Core.messages _ ++ _)
      rw [messages, List.append_assoc, List.singleton_append]
      exact holding.perm List.perm_middle.symm
    · rw [messages, ← accepted]
      simp [Journal.accepted]
  · rw [result]
    refine ⟨holding.tail, erased, safe.order.trans ?_⟩
    simp [Journal.accepted]

theorem receive {core : Core} (safe : Accounted traffic journal) (taken : traffic.core.receive = some core) :
    Accounted { traffic with core := core } journal := by
  have ⟨heap, messages⟩ := received_messages taken
  refine ⟨?_, ?_, ?_⟩
  · rw [heap, messages]
    exact safe.holding
  · rw [heap]
    exact safe.promised
  · rw [heap, messages]
    exact safe.order

/-- The invocation moves from the messages to the journal. -/
theorem handle {core : Core} {msg : Msg} (safe : Accounted traffic journal)
    (handling : traffic.core.handling = some msg) (taken : traffic.core.handle = some core) :
    Accounted { traffic with core := core } (journal.invoke traffic.core.heap msg) := by
  have first : traffic.core.messages = msg :: traffic.core.queue.items := by
    rw [Core.messages, handling, Option.toList_some, List.singleton_append]
  have holding := safe.holding
  rw [first, List.cons_append] at holding
  have called := holding.called msg List.mem_cons_self
  have order := safe.order
  rw [first, List.map_cons, ← List.singleton_append, ← List.append_assoc] at order
  rw [journal.invoke_called called]
  simp only [Core.handle, handling, Option.map_some, Option.some.injEq] at taken
  cases handled : (btAppTaskHandler msg traffic.core.heap).2 with
  | error fault =>
      rw [handled] at taken
      subst taken
      exact ⟨holding.tail, safe.promised, order⟩
  | ok after =>
      rw [handled] at taken
      subst taken
      obtain ⟨kept, same⟩ := holding.handle handled
      have waiting : traffic.core.queue.items.map (Msg.seen after) =
          traffic.core.queue.items.map (Msg.seen traffic.core.heap) :=
        List.map_congr_left fun other member => same other (List.mem_append_left _ member)
      have drafts : traffic.drafts.map (Msg.seen after) = traffic.drafts.map (Msg.seen traffic.core.heap) :=
        List.map_congr_left fun other member => same other (List.mem_append_right _ member)
      refine ⟨kept, drafts.trans safe.promised, ?_⟩
      show (journal.invoked ++ [msg.seen traffic.core.heap]) ++
        traffic.core.queue.items.map (Msg.seen after) = journal.accepted
      rw [waiting]
      exact order

/-- Every step keeps the account. -/
theorem step {label : TrafficLabel} (safe : Accounted traffic journal) (taken : traffic.step label = some next) :
    Accounted next (traffic.record label next journal) := by
  unfold Traffic.step at taken
  split at taken
  · cases taken
  · cases label with
    | store address byte =>
        cases taken
        exact ⟨safe.holding, safe.promised, safe.order⟩
    | dispatch arguments mallocOk =>
        cases taken
        apply safe.enter mallocOk rfl (arguments.call_seen traffic.memory traffic.core.heap) safe.holding
          fun _ _ => rfl
        intro params text given pointer
        obtain ⟨address, _, rfl⟩ := Option.map_eq_some_iff.mp given
        cases pointer
    | rcCtCb report mallocOk =>
        cases taken
        simp only [Traffic.record, Traffic.entry]
        cases entered : btAppRcCtCall report.event (report.ctParam traffic.memory) traffic.core.heap with
        | none => exact safe
        | some pair =>
            obtain ⟨called, shown, holding, same, unowned⟩ := CtReport.entry_seen safe.holding entered
            exact safe.enter mallocOk called shown holding same unowned
    | send draft =>
        obtain ⟨msg, drafted, rfl⟩ := Option.map_eq_some_iff.mp taken
        simp only [Traffic.record, drafted]
        exact safe.send drafted
    | receive =>
        obtain ⟨core, received, rfl⟩ := Option.map_eq_some_iff.mp taken
        exact safe.receive received
    | handle =>
        obtain ⟨core, handled, rfl⟩ := Option.map_eq_some_iff.mp taken
        cases handling : traffic.core.handling with
        | none => simp [Core.handle, handling] at handled
        | some msg =>
            simp only [Traffic.record, handling]
            exact safe.handle handling handled

theorem reachable {memory : Memory} {pair : Traffic × Journal} (reached : (fifoMachine memory).Reachable pair) :
    Accounted pair.1 pair.2 :=
  reached.recorded_invariant Accounted (start memory) fun _ _ _ _ safe _ taken => safe.step taken

end Accounted

/-- The invocations and then the waiting messages are the calls that returned true, each with its bytes. -/
theorem invoked_append_messages {memory : Memory} {traffic : Traffic} {journal : Journal}
    (reached : (fifoMachine memory).Reachable (traffic, journal)) :
    journal.invoked ++ traffic.core.messages.map (Msg.seen traffic.core.heap) = journal.accepted :=
  (Accounted.reachable reached).order

/-- Two bytes of a parameter and two bytes of a text. -/
def shortMemory : Memory := fun address => [7, 8, 65, 66].getD address 0

/-- The first byte of the first call is overwritten before both calls send in the other order. -/
theorem invoked_append_messages_overwritten : ∃ (traffic : Traffic) (journal : Journal),
    journal.invoked ++ traffic.core.messages.map (Msg.seen traffic.core.heap) = journal.accepted ∧
      journal.accepted =
        [⟨some .btAvHdlAvrcCtEvt, .ct .metadataRsp, some [7], some [65, 66, 0]⟩,
          ⟨some (.other 3), .other 9, some [7, 8], none⟩] ∧
      traffic.core.messages = [] := by
  have called : (fifoMachine shortMemory).Reachable _ :=
    .step .refl (.dispatch ⟨.other 3, .other 9, some 0, 2, none⟩ true) trivial rfl
  have reported : (fifoMachine shortMemory).Reachable _ :=
    .step called (.rcCtCb ⟨.metadataRsp, 0, 1, Nat.one_pos, 2, 2⟩ true) trivial rfl
  have stored : (fifoMachine shortMemory).Reachable _ := .step reported (.store 0 0) trivial rfl
  have second : (fifoMachine shortMemory).Reachable _ := .step stored (.send 1) trivial rfl
  have first : (fifoMachine shortMemory).Reachable _ := .step second (.send 0) trivial rfl
  have received : (fifoMachine shortMemory).Reachable _ := .step first .receive trivial rfl
  have handled : (fifoMachine shortMemory).Reachable _ := .step received .handle trivial rfl
  have again : (fifoMachine shortMemory).Reachable _ := .step handled .receive trivial rfl
  have last : (fifoMachine shortMemory).Reachable _ := .step again .handle trivial rfl
  exact ⟨_, _, invoked_append_messages last, by decide, rfl⟩

end DesktopCube.Work
