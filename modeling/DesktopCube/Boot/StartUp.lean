import DesktopCube.Library.BoundedQueue
import DesktopCube.Library.Machine
import DesktopCube.Library.Script

namespace DesktopCube.Boot
open Transition BoundedQueue Script

/-- The profiles whose callbacks dispatch to `BtAppTask`. -/
inductive Profile where
  | avrcCt
  | avrcTg
  | a2dSink
  deriving DecidableEq, Repr

inductive MyTask where
  | httpGetTime
  | httpGetWeather
  | rtcGetTime
  | adcGetVoltage
  deriving DecidableEq, Repr

inductive MainCall where
  | nvsFlashInit
  | nvsFlashErase
  | nvsFlashInitAgain
  | btControllerMemRelease
  | btControllerInit
  | btControllerEnable
  | bluedroidInitWithCfg
  | bluedroidEnable
  | btGapSetSecurityParam
  | btGapSetPin
  | xQueueCreate
  | xTaskCreate
  | btAppWorkDispatch
  | netifInit
  | eventLoopCreateDefault
  | exampleConnect
  | uartInit
  | xTaskCreatePinnedToCore (task : MyTask)
  | gpioConfig
  | gpioSetLevel
  deriving DecidableEq, Repr

/-- The calls of `app_main` when the flash needs no erase. -/
def appMain : List MainCall :=
  [.nvsFlashInit, .btControllerMemRelease, .btControllerInit, .btControllerEnable, .bluedroidInitWithCfg,
    .bluedroidEnable, .btGapSetSecurityParam, .btGapSetPin, .xQueueCreate, .xTaskCreate, .btAppWorkDispatch,
    .netifInit, .eventLoopCreateDefault, .exampleConnect, .uartInit, .xTaskCreatePinnedToCore .httpGetTime,
    .xTaskCreatePinnedToCore .httpGetWeather, .xTaskCreatePinnedToCore .rtcGetTime,
    .xTaskCreatePinnedToCore .adcGetVoltage, .gpioConfig, .gpioSetLevel]

/-- A call of the handler `bt_av_hdl_stack_evt`. -/
inductive StackCall where
  | gapSetDeviceName
  | devRegisterCallback
  | gapRegisterCallback
  | init (profile : Profile)
  | registerCallback (profile : Profile)
  | tgSetRnEvtCap
  | registerDataCallback
  | getDelayValue
  | gapGetDeviceName
  | gapSetScanMode
  deriving DecidableEq, Repr

/-- The calls for the event `BT_APP_EVT_STACK_UP`. -/
def btAvHdlStackEvt : List StackCall :=
  [.gapSetDeviceName, .devRegisterCallback, .gapRegisterCallback, .init .avrcCt, .registerCallback .avrcCt,
    .init .avrcTg, .registerCallback .avrcTg, .tgSetRnEvtCap, .init .a2dSink, .registerCallback .a2dSink,
    .registerDataCallback, .getDelayValue, .gapGetDeviceName, .gapSetScanMode]

inductive Message where
  | stackUp
  | report (profile : Profile)
  deriving DecidableEq, Repr

/-- The handlers of the profiles have modules of their own. -/
def Message.calls : Message → List StackCall
  | .stackUp => btAvHdlStackEvt
  | .report _ => []

/-- The answer `noFreePages` also stands for a new version of the flash format. -/
inductive Answer where
  | ok
  | noFreePages
  | failed
  deriving DecidableEq, Repr

structure System where
  main : List MainCall
  stack : List StackCall
  aborted : Bool
  bluedroid : Bool
  queue : Option (Queue Message 10)
  btAppTask : Bool
  handled : List Message
  initialized : List Profile
  registered : List Profile
  rnEvtCap : Bool
  dataCallback : Bool
  scanMode : Bool
  connected : Bool
  uart : Bool
  tasks : List MyTask

def System.start : System where
  main := appMain
  stack := []
  aborted := false
  bluedroid := false
  queue := none
  btAppTask := false
  handled := []
  initialized := []
  registered := []
  rnEvtCap := false
  dataCallback := false
  scanMode := false
  connected := false
  uart := false
  tasks := []

namespace System

/-- The queue asserts that it exists and refuses a message when it is full. -/
def dispatch (s : System) (message : Message) : System :=
  match s.queue with
  | none => { s with aborted := true }
  | some queue => { s with queue := some ((queue.send message).getD queue) }

/-- What a call leaves behind when it succeeds. -/
def succeed (s : System) : MainCall → System
  | .bluedroidEnable => { s with bluedroid := true }
  | .xQueueCreate => { s with queue := some Queue.empty }
  | .xTaskCreate => { s with btAppTask := true }
  | .exampleConnect => { s with connected := true }
  | .xTaskCreatePinnedToCore task => { s with tasks := task :: s.tasks }
  | _ => s

/-- A failure returns from `app_main`, goes unnoticed or fails an `ESP_ERROR_CHECK`. -/
def fail (s : System) : MainCall → System
  | .btControllerInit | .btControllerEnable | .bluedroidInitWithCfg | .bluedroidEnable => { s with main := [] }
  | .btGapSetSecurityParam | .btGapSetPin | .xQueueCreate | .xTaskCreate | .xTaskCreatePinnedToCore _ | .gpioConfig
  | .gpioSetLevel => s
  | _ => { s with aborted := true }

/-- The result of the dispatch and the results inside `uart_init` are not looked at. -/
def appMainCall (s : System) (call : MainCall) (answer : Answer) : System :=
  match call, answer with
  | .nvsFlashInit, .noFreePages => { s with main := .nvsFlashErase :: .nvsFlashInitAgain :: s.main }
  | .btAppWorkDispatch, _ => s.dispatch .stackUp
  | .uartInit, _ => { s with uart := true }
  | call, .ok => s.succeed call
  | call, _ => s.fail call

/-- The stack takes callbacks and modes only when it is enabled. -/
def stackCall (s : System) (call : StackCall) (answer : Answer) : System :=
  match call with
  | .init profile =>
      if answer = .ok then { s with initialized := profile :: s.initialized } else { s with aborted := true }
  | .tgSetRnEvtCap => if answer = .ok then { s with rnEvtCap := true } else { s with aborted := true }
  | .registerCallback profile => if s.bluedroid then { s with registered := profile :: s.registered } else s
  | .registerDataCallback => if s.bluedroid then { s with dataCallback := true } else s
  | .gapSetScanMode => if s.bluedroid then { s with scanMode := true } else s
  | .gapSetDeviceName | .devRegisterCallback | .gapRegisterCallback | .getDelayValue | .gapGetDeviceName => s

/-- `BtAppTask` takes its next message when its handler has returned. -/
def receive (s : System) : Option System :=
  if s.btAppTask = true ∧ s.stack = [] then
    match s.queue with
    | none => some { s with aborted := true }
    | some queue => queue.receive.map fun (message, rest) =>
        { s with queue := some rest, handled := s.handled ++ [message], stack := message.calls }
  else none

end System

/-- The main task, `BtAppTask` and the callbacks of the stack take steps in any order. -/
inductive BootLabel where
  | appMain (answer : Answer)
  | receive
  | btAvHdlStackEvt (answer : Answer)
  | report (profile : Profile)
  deriving DecidableEq, Repr

/-- An abort ends the run and a callback reports only when it is registered. -/
def System.step (s : System) (label : BootLabel) : Option System :=
  if s.aborted then none
  else
    match label with
    | .appMain answer =>
        match s.main with
        | [] => none
        | call :: rest => some ({ s with main := rest }.appMainCall call answer)
    | .receive => s.receive
    | .btAvHdlStackEvt answer =>
        match s.stack with
        | [] => none
        | call :: rest => some ({ s with stack := rest }.stackCall call answer)
    | .report profile => if profile ∈ s.registered then some (s.dispatch (.report profile)) else none

def bootMachine : Machine System BootLabel := ⟨System.start, System.step⟩

/-- The messages in the order of their dispatch. -/
def System.messages (s : System) : List Message := s.handled ++ s.queue.elim [] Queue.items

/-- What a later call of `app_main` relies on. -/
def System.MainDone (s : System) : MainCall → Prop
  | .bluedroidEnable => s.bluedroid = true
  | .exampleConnect => s.connected = true
  | .uartInit => s.uart = true
  | _ => True

/-- What a later call of `bt_av_hdl_stack_evt` relies on. -/
def System.StackDone (s : System) : StackCall → Prop
  | .init profile => profile ∈ s.initialized
  | .registerCallback profile => profile ∈ s.registered
  | .tgSetRnEvtCap => s.rnEvtCap = true
  | .registerDataCallback => s.dataCallback = true
  | _ => True

/-- The calls of both scripts come in their order and the messages follow them. -/
structure Ordered (s : System) : Prop where
  main : s.aborted = false → InOrder appMain s.main s.MainDone
  stack : s.aborted = false → InOrder btAvHdlStackEvt s.stack s.StackDone
  created : s.queue.isSome → s.bluedroid = true
  tasks : ∀ task ∈ s.tasks, s.bluedroid = true ∧ s.connected = true ∧ s.uart = true
  started : s.stack ≠ [] ∨ s.registered ≠ [] → s.handled ≠ []
  queued : s.messages ≠ [] → s.queue.isSome
  first : s.messages ≠ [] → s.messages.head? = some .stackUp
  reported : ∀ profile, .report profile ∈ s.messages → profile ∈ s.registered
  registered : ∀ profile ∈ s.registered, profile ∈ s.initialized
  scan : s.scanMode = true → ∀ call ∈ btAvHdlStackEvt, s.StackDone call

namespace Ordered

variable {s next : System}

theorem start : Ordered System.start where
  main _ := InOrder.start _ _
  stack _ := InOrder.ended _ _
  created exists_ := by cases exists_
  tasks _ member := absurd member List.not_mem_nil
  started moved := absurd moved (by simp [System.start])
  queued some_ := absurd rfl some_
  first some_ := absurd rfl some_
  reported _ member := absurd member List.not_mem_nil
  registered _ member := absurd member List.not_mem_nil
  scan on := by cases on

/-- A callback is registered only while the queue exists. -/
theorem queue_of_started (ordered : Ordered s) (started : s.stack ≠ [] ∨ s.registered ≠ []) :
    s.queue.isSome ∧ s.bluedroid = true := by
  have handled := ordered.started started
  have created : s.queue.isSome := ordered.queued fun empty => handled (List.append_eq_nil_iff.mp empty).1
  exact ⟨created, ordered.created created⟩

/-- The main task moves on without touching anything else. -/
theorem of_main (ordered : Ordered s) (rest : List MainCall)
    (main : s.aborted = false → InOrder appMain rest s.MainDone) : Ordered { s with main := rest } :=
  ⟨main, ordered.stack, ordered.created, ordered.tasks, ordered.started, ordered.queued, ordered.first,
    ordered.reported, ordered.registered, ordered.scan⟩

theorem of_abort (ordered : Ordered s) (rest : List MainCall) :
    Ordered { s with main := rest, aborted := true } :=
  ⟨fun running => Bool.noConfusion running, fun running => Bool.noConfusion running, ordered.created,
    ordered.tasks, ordered.started, ordered.queued, ordered.first, ordered.reported, ordered.registered,
    ordered.scan⟩

/-- The first message starts the stack and the others come from registered callbacks. -/
theorem dispatch (ordered : Ordered s) (message : Message) (opens : s.messages = [] → message = .stackUp)
    (reports : ∀ profile, message = .report profile → profile ∈ s.registered) :
    Ordered (s.dispatch message) := by
  cases created : s.queue with
  | none =>
      have aborts : s.dispatch message = { s with aborted := true } := by simp only [System.dispatch, created]
      rw [aborts]
      exact ordered.of_abort s.main
  | some queue =>
      have result : s.dispatch message = { s with queue := some ((queue.send message).getD queue) } := by
        simp only [System.dispatch, created]
      have exists_ : s.queue.isSome := by rw [created]; rfl
      have before : s.messages = s.handled ++ queue.items := by rw [System.messages, created]; rfl
      have messages : s.handled ++ ((queue.send message).getD queue).items = s.messages ∨
          s.handled ++ ((queue.send message).getD queue).items = s.messages ++ [message] := by
        cases sent : queue.send message with
        | none => exact .inl before.symm
        | some queue' =>
            rw [before, List.append_assoc, ← Queue.send_some sent]
            exact .inr rfl
      rw [result]
      refine ⟨ordered.main, ordered.stack, fun _ => ordered.created exists_, ordered.tasks, ordered.started,
        fun _ => rfl, ?_, ?_, ordered.registered, ordered.scan⟩
      · show s.handled ++ ((queue.send message).getD queue).items ≠ [] →
          (s.handled ++ ((queue.send message).getD queue).items).head? = some .stackUp
        rcases messages with same | added
        · rw [same]
          exact ordered.first
        · rw [added, List.head?_append]
          intro _
          by_cases empty : s.messages = []
          · rw [empty, opens empty]
            rfl
          · rw [ordered.first empty]
            rfl
      · show ∀ profile, Message.report profile ∈ s.handled ++ ((queue.send message).getD queue).items →
          profile ∈ s.registered
        rcases messages with same | added
        · rw [same]
          exact ordered.reported
        · rw [added]
          intro profile member
          rcases List.mem_append.mp member with old | new
          · exact ordered.reported profile old
          · exact reports profile (List.mem_singleton.mp new).symm

/-- A successful call of `app_main` leaves its effect. -/
theorem succeed {call : MainCall} {rest : List MainCall} (ordered : Ordered s) (running : s.aborted = false)
    (main : s.main = call :: rest) (other : call ≠ .uartInit) :
    Ordered (System.succeed { s with main := rest } call) := by
  have order := ordered.main running
  rw [main] at order
  have quiet (silent : s.MainDone call) : Ordered { s with main := rest } :=
    ordered.of_main rest fun _ => order.tail (fun _ done => done) silent
  cases call with
  | bluedroidEnable =>
      refine ⟨fun _ => order.tail ?_ rfl, ordered.stack, fun _ => rfl, ?_, ordered.started, ordered.queued,
        ordered.first, ordered.reported, ordered.registered, ordered.scan⟩
      · intro other done
        cases other <;> first | exact done | rfl
      · exact fun task member => ⟨rfl, (ordered.tasks task member).2⟩
  | exampleConnect =>
      refine ⟨fun _ => order.tail ?_ rfl, ordered.stack, ordered.created, ?_, ordered.started, ordered.queued,
        ordered.first, ordered.reported, ordered.registered, ordered.scan⟩
      · intro other done
        cases other <;> first | exact done | rfl
      · exact fun task member => ⟨(ordered.tasks task member).1, rfl, (ordered.tasks task member).2.2⟩
  | xQueueCreate =>
      have enabled : s.bluedroid = true := order.before (by decide) .bluedroidEnable rfl
      have kept : s.handled ++ [] ≠ [] → s.messages ≠ [] ∧ s.messages.head? = (s.handled ++ []).head? := by
        intro some_
        have handled : s.handled ≠ [] := by simpa using some_
        refine ⟨fun empty => handled (List.append_eq_nil_iff.mp empty).1, ?_⟩
        rw [System.messages, List.head?_append_of_ne_nil _ handled, List.append_nil]
      refine ⟨fun _ => order.tail (fun _ done => done) trivial, ordered.stack, fun _ => enabled, ordered.tasks,
        ordered.started, fun _ => rfl, ?_, ?_, ordered.registered, ordered.scan⟩
      · intro some_
        exact (kept some_).2.symm.trans (ordered.first (kept some_).1)
      · intro profile member
        change Message.report profile ∈ s.handled ++ [] at member
        rw [List.append_nil] at member
        exact ordered.reported profile (List.mem_append_left _ member)
  | xTaskCreatePinnedToCore task =>
      have listed : MainCall.xTaskCreatePinnedToCore task ∈ appMain := by cases task <;> decide
      have enabled : s.bluedroid = true := order.before listed .bluedroidEnable (by cases task <;> rfl)
      have connected : s.connected = true := order.before listed .exampleConnect (by cases task <;> rfl)
      have uart : s.uart = true := order.before listed .uartInit (by cases task <;> rfl)
      have kept := quiet trivial
      refine ⟨kept.main, ordered.stack, ordered.created, ?_, ordered.started, ordered.queued,
        ordered.first, ordered.reported, ordered.registered, ordered.scan⟩
      exact fun _ _ => ⟨enabled, connected, uart⟩
  | xTaskCreate =>
      have kept := quiet trivial
      exact ⟨kept.main, ordered.stack, ordered.created, ordered.tasks, ordered.started, ordered.queued,
        ordered.first, ordered.reported, ordered.registered, ordered.scan⟩
  | uartInit => exact absurd rfl other
  | nvsFlashInit | nvsFlashErase | nvsFlashInitAgain | btControllerMemRelease | btControllerInit
    | btControllerEnable | bluedroidInitWithCfg | btGapSetSecurityParam | btGapSetPin | btAppWorkDispatch | netifInit
    | eventLoopCreateDefault | gpioConfig | gpioSetLevel => exact quiet trivial

/-- A failed call of `app_main` ends it, the run or nothing. -/
theorem fail {call : MainCall} {rest : List MainCall} (ordered : Ordered s) (running : s.aborted = false)
    (main : s.main = call :: rest) : Ordered (System.fail { s with main := rest } call) := by
  have order := ordered.main running
  rw [main] at order
  have quiet (silent : s.MainDone call) : Ordered { s with main := rest } :=
    ordered.of_main rest fun _ => order.tail (fun _ done => done) silent
  cases call with
  | btControllerInit | btControllerEnable | bluedroidInitWithCfg | bluedroidEnable =>
      exact ordered.of_main [] fun _ => InOrder.ended _ _
  | btGapSetSecurityParam | btGapSetPin | xQueueCreate | xTaskCreate | xTaskCreatePinnedToCore | gpioConfig
  | gpioSetLevel => exact quiet trivial
  | nvsFlashInit | nvsFlashErase | nvsFlashInitAgain | btControllerMemRelease | btAppWorkDispatch | netifInit
    | eventLoopCreateDefault | exampleConnect | uartInit => exact ordered.of_abort rest

theorem appMainCall {call : MainCall} {rest : List MainCall} (answer : Answer) (ordered : Ordered s)
    (running : s.aborted = false) (main : s.main = call :: rest) :
    Ordered (System.appMainCall { s with main := rest } call answer) := by
  have order := ordered.main running
  rw [main] at order
  unfold System.appMainCall
  split
  · apply ordered.of_main
    intro _
    have next : InOrder appMain rest s.MainDone := order.tail (fun _ done => done) trivial
    exact (next.push (by decide)).push (by decide)
  · have next : InOrder appMain rest s.MainDone := order.tail (fun _ done => done) trivial
    exact (ordered.of_main rest fun _ => next).dispatch .stackUp (fun _ => rfl) fun _ same => Message.noConfusion same
  · refine ⟨fun _ => order.tail ?_ rfl, ordered.stack, ordered.created, ?_, ordered.started, ordered.queued,
      ordered.first, ordered.reported, ordered.registered, ordered.scan⟩
    · intro other done
      cases other <;> first | exact done | rfl
    · exact fun task member => ⟨(ordered.tasks task member).1, (ordered.tasks task member).2.1, rfl⟩
  · rename_i notUart
    exact ordered.succeed running main fun same => notUart same
  · exact ordered.fail running main

/-- The handler goes on without touching what the main task relies on. -/
theorem of_stack (ordered : Ordered s) (rest : List StackCall)
    (stack : s.aborted = false → InOrder btAvHdlStackEvt rest s.StackDone)
    (busy : s.stack ≠ []) : Ordered { s with stack := rest } :=
  ⟨ordered.main, stack, ordered.created, ordered.tasks, fun _ => ordered.started (.inl busy), ordered.queued,
    ordered.first, ordered.reported, ordered.registered, ordered.scan⟩

/-- The handler registers a callback after the initialization of its profile and opens the device last. -/
theorem stackCall {call : StackCall} {rest : List StackCall} (answer : Answer) (ordered : Ordered s)
    (running : s.aborted = false) (stack : s.stack = call :: rest) :
    Ordered (System.stackCall { s with stack := rest } call answer) := by
  have busy : s.stack ≠ [] := by rw [stack]; exact List.cons_ne_nil _ _
  have enabled : s.bluedroid = true := (ordered.queue_of_started (.inl busy)).2
  have order := ordered.stack running
  rw [stack] at order
  have quiet (silent : s.StackDone call) : Ordered { s with stack := rest } :=
    ordered.of_stack rest (fun _ => order.tail (fun _ done => done) silent) busy
  have aborts : Ordered { s with stack := rest, aborted := true } :=
    ⟨fun running => Bool.noConfusion running, fun running => Bool.noConfusion running, ordered.created,
      ordered.tasks, fun _ => ordered.started (.inl busy), ordered.queued, ordered.first, ordered.reported,
      ordered.registered, ordered.scan⟩
  unfold System.stackCall
  cases call with
  | init profile =>
      simp only
      split
      · have grows : ∀ other, s.StackDone other →
            System.StackDone { s with initialized := profile :: s.initialized } other := by
          intro other done
          cases other <;> first | exact List.mem_cons_of_mem _ done | exact done
        refine ⟨ordered.main, fun _ => order.tail grows List.mem_cons_self, ordered.created, ordered.tasks,
          fun _ => ordered.started (.inl busy), ordered.queued, ordered.first, ordered.reported, ?_, ?_⟩
        · exact fun other member => List.mem_cons_of_mem _ (ordered.registered other member)
        · exact fun on other member => grows other (ordered.scan on other member)
      · exact aborts
  | tgSetRnEvtCap =>
      simp only
      split
      · have grows : ∀ other, s.StackDone other → System.StackDone { s with rnEvtCap := true } other := by
          intro other done
          cases other <;> first | exact done | rfl
        exact ⟨ordered.main, fun _ => order.tail grows rfl, ordered.created, ordered.tasks,
          fun _ => ordered.started (.inl busy), ordered.queued, ordered.first, ordered.reported, ordered.registered,
          fun on other member => grows other (ordered.scan on other member)⟩
      · exact aborts
  | registerCallback profile =>
      have opens : System.bluedroid { s with stack := rest } = true := enabled
      simp only [if_pos opens]
      have ready : profile ∈ s.initialized :=
        order.before (by cases profile <;> decide) (.init profile) (by cases profile <;> rfl)
      have grows : ∀ other, s.StackDone other →
          System.StackDone { s with registered := profile :: s.registered } other := by
        intro other done
        cases other <;> first | exact List.mem_cons_of_mem _ done | exact done
      refine ⟨ordered.main, fun _ => order.tail grows List.mem_cons_self, ordered.created, ordered.tasks,
        fun _ => ordered.started (.inl busy), ordered.queued, ordered.first, ?_, ?_, ?_⟩
      · exact fun other member => List.mem_cons_of_mem _ (ordered.reported other member)
      · intro other member
        rcases List.mem_cons.mp member with rfl | old
        · exact ready
        · exact ordered.registered other old
      · exact fun on other member => grows other (ordered.scan on other member)
  | registerDataCallback =>
      have opens : System.bluedroid { s with stack := rest } = true := enabled
      simp only [if_pos opens]
      have grows : ∀ other, s.StackDone other → System.StackDone { s with dataCallback := true } other := by
        intro other done
        cases other <;> first | exact done | rfl
      exact ⟨ordered.main, fun _ => order.tail grows rfl, ordered.created, ordered.tasks,
        fun _ => ordered.started (.inl busy), ordered.queued, ordered.first, ordered.reported, ordered.registered,
        fun on other member => grows other (ordered.scan on other member)⟩
  | gapSetScanMode =>
      have opens : System.bluedroid { s with stack := rest } = true := enabled
      simp only [if_pos opens]
      have kept := quiet trivial
      refine ⟨ordered.main, kept.stack, ordered.created, ordered.tasks, kept.started, ordered.queued, ordered.first,
        ordered.reported, ordered.registered, ?_⟩
      intro _ other member
      by_cases last : other = .gapSetScanMode
      · rw [last]
        trivial
      · have all : ∀ call ∈ btAvHdlStackEvt, call ≠ .gapSetScanMode →
            precedes call .gapSetScanMode btAvHdlStackEvt = true := by decide
        exact order.before (by decide) other (all other member last)
  | gapSetDeviceName | devRegisterCallback | gapRegisterCallback | getDelayValue | gapGetDeviceName =>
      exact quiet trivial

/-- The task starts the handler of its next message. -/
theorem receive (ordered : Ordered s) (taken : s.receive = some next) : Ordered next := by
  unfold System.receive at taken
  split at taken
  · rename_i ready
    cases created : s.queue with
    | none =>
        simp only [created, Option.some.injEq] at taken
        subst taken
        rw [← created]
        exact ordered.of_abort s.main
    | some queue =>
        simp only [created] at taken
        obtain ⟨⟨message, rest⟩, received, rfl⟩ := Option.map_eq_some_iff.mp taken
        have exists_ : s.queue.isSome := by rw [created]; rfl
        have messages : (s.handled ++ [message]) ++ rest.items = s.messages := by
          rw [System.messages, created, List.append_assoc, List.singleton_append, ← Queue.receive_some received]
          rfl
        have some_ : s.handled ++ [message] ≠ [] := by simp
        refine ⟨ordered.main, fun _ => ?_, fun _ => ordered.created exists_, ordered.tasks, fun _ => some_,
          fun _ => rfl, ?_, ?_, ordered.registered, ordered.scan⟩
        · cases message with
          | stackUp => exact InOrder.start _ _
          | report profile => exact InOrder.ended _ _
        · show (s.handled ++ [message]) ++ rest.items ≠ [] →
            ((s.handled ++ [message]) ++ rest.items).head? = some .stackUp
          rw [messages]
          exact ordered.first
        · show ∀ profile, Message.report profile ∈ (s.handled ++ [message]) ++ rest.items → profile ∈ s.registered
          rw [messages]
          exact ordered.reported
  · cases taken

theorem step {label : BootLabel} (ordered : Ordered s) (taken : s.step label = some next) : Ordered next := by
  unfold System.step at taken
  split at taken
  · cases taken
  · rename_i running
    rw [Bool.not_eq_true] at running
    cases label with
    | appMain answer =>
        cases main : s.main with
        | nil => simp [main] at taken
        | cons call rest =>
            simp only [main, Option.some.injEq] at taken
            exact taken ▸ ordered.appMainCall answer running main
    | receive => exact ordered.receive taken
    | btAvHdlStackEvt answer =>
        cases stack : s.stack with
        | nil => simp [stack] at taken
        | cons call rest =>
            simp only [stack, Option.some.injEq] at taken
            exact taken ▸ ordered.stackCall answer running stack
    | report profile =>
        simp only at taken
        split at taken
        · rename_i registered
          cases taken
          apply ordered.dispatch
          · intro empty
            have started := ordered.started (.inr (List.ne_nil_of_mem registered))
            exact absurd (List.append_eq_nil_iff.mp empty).1 started
          · intro other same
            cases same
            exact registered
        · cases taken

theorem reachable (reached : bootMachine.Reachable s) : Ordered s :=
  reached.invariant Ordered start fun _ _ _ ordered _ taken => ordered.step taken

end Ordered

/-- The device opens after its callbacks, the tasks start after their drivers and no report misses the queue. -/
theorem boot_ordered {s : System} (reached : bootMachine.Reachable s) :
    (∀ task ∈ s.tasks, s.bluedroid = true ∧ s.connected = true ∧ s.uart = true) ∧
      (s.handled ≠ [] → s.handled.head? = some .stackUp) ∧
      (∀ profile, .report profile ∈ s.handled → profile ∈ s.registered) ∧
      (∀ profile ∈ s.registered, profile ∈ s.initialized ∧ s.queue.isSome) ∧
      (∀ profile next, bootMachine.step s (.report profile) = some next → next.aborted = false) ∧
      (s.scanMode = true → s.rnEvtCap = true ∧ s.dataCallback = true ∧ ∀ profile, profile ∈ s.registered) := by
  have ordered := Ordered.reachable reached
  refine ⟨ordered.tasks, ?_, ?_, ?_, ?_, ?_⟩
  · intro handled
    have first := ordered.first fun empty => handled (List.append_eq_nil_iff.mp empty).1
    rw [System.messages, List.head?_append_of_ne_nil _ handled] at first
    exact first
  · exact fun profile member => ordered.reported profile (List.mem_append_left _ member)
  · intro profile member
    have started := ordered.queue_of_started (.inr (List.ne_nil_of_mem member))
    exact ⟨ordered.registered profile member, started.1⟩
  · intro profile next taken
    simp only [bootMachine, System.step] at taken
    split at taken
    · cases taken
    · rename_i running
      rw [Bool.not_eq_true] at running
      split at taken
      · rename_i member
        obtain ⟨queue, created⟩ := Option.isSome_iff_exists.mp
          (ordered.queue_of_started (.inr (List.ne_nil_of_mem member))).1
        cases taken
        simp only [System.dispatch, created]
        exact running
      · cases taken
  · intro on
    refine ⟨ordered.scan on .tgSetRnEvtCap (by decide), ordered.scan on .registerDataCallback (by decide), ?_⟩
    intro profile
    exact ordered.scan on (.registerCallback profile) (by cases profile <;> decide)

/-- The flash is erased first and the sink reports before the first task starts. -/
theorem boot_ordered_erased : ∃ s : System, s.scanMode = true ∧ s.tasks = [.httpGetTime] ∧
    s.handled = [.stackUp, .report .a2dSink] ∧ s.uart = true ∧ .avrcTg ∈ s.registered := by
  have finished : bootMachine.run System.start (.appMain .noFreePages :: List.replicate 12 (.appMain .ok) ++
      .receive :: List.replicate 14 (.btAvHdlStackEvt .ok) ++ [.report .a2dSink, .receive] ++
        List.replicate 5 (.appMain .ok)) = some _ := rfl
  have boot := boot_ordered (Machine.run_reaches finished fun _ _ _ => trivial)
  exact ⟨_, rfl, rfl, rfl, (boot.1 .httpGetTime (by decide)).2.2, (boot.2.2.2.2.2 rfl).2.2 .avrcTg⟩

end DesktopCube.Boot
