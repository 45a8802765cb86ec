import DesktopCube.Library.BoundedQueue
import DesktopCube.Library.Heap
import DesktopCube.Library.Machine

namespace DesktopCube.Work
open Transition CMemory BoundedQueue

/-- The signal `BT_APP_SIG_WORK_DISPATCH`. -/
def btAppSigWorkDispatch : Nat := 0x01

/-- The handlers that the tasks pass to `bt_app_work_dispatch` and any other callback. -/
inductive Callback where
  | btAvHdlStackEvt
  | btAvHdlA2dEvt
  | btAvHdlAvrcCtEvt
  | btAvHdlAvrcTgEvt
  | other (callback : Nat)
  deriving DecidableEq, Repr

/-- The events of the AVRCP controller that `bt_app_rc_ct_cb` names. -/
inductive CtEvent where
  | metadataRsp
  | connectionState
  | passthroughRsp
  | changeNotify
  | remoteFeatures
  | getRnCapabilitiesRsp
  | other (event : UInt16)
  deriving DecidableEq, Repr

inductive Event where
  | ct (event : CtEvent)
  | other (event : UInt16)
  deriving DecidableEq, Repr

/-- The message points to its parameter block. -/
structure Msg where
  sig : Nat
  event : Event
  cb : Option Callback
  param : Option Nat
  deriving DecidableEq, Repr

/-- A parameter block may itself point to a metadata text. -/
inductive Content where
  | param (bytes : List UInt8) (attrText : Option Nat)
  | text (bytes : List UInt8)
  deriving DecidableEq, Repr

/-- `BtAppTask` takes its messages from a queue of ten. -/
structure Core where
  heap : Heap Content
  queue : Queue Msg 10
  handling : Option Msg
  fault : Option Fault

def Core.start : Core := ⟨Heap.empty, Queue.empty, none, none⟩

/-- The memory behind `p_params` and the pointer that it contains. -/
structure Params where
  memory : Nat → UInt8
  attrText : Option Nat

/-- The arguments of one call of `bt_app_work_dispatch`. -/
structure WorkCall where
  pCback : Option Callback
  event : Event
  pParams : Option Params
  paramLen : Int
  pCopyCback : Option (List UInt8 → (Nat → UInt8) → Int → List UInt8)

/-- The result tells whether the queue took the message before the timeout. -/
def btAppSendMsg (msg : Option Msg) (core : Core) : Bool × Core :=
  match msg with
  | none => (false, core)
  | some msg =>
      match core.queue.send msg with
      | some queue => (true, { core with queue := queue })
      | none => (false, core)

/-- The parameter block holds the copied bytes as the copy callback rewrites them. -/
def copiedParam (call : WorkCall) (params : Params) : Content :=
  let copied := (List.range call.paramLen.toNat).map params.memory
  match call.pCopyCback with
  | some copy => .param (copy copied params.memory call.paramLen) params.attrText
  | none => .param copied params.attrText

def btAppWorkDispatch (call : WorkCall) (mallocOk : Bool) (core : Core) : Bool × Core :=
  let msg : Msg := ⟨btAppSigWorkDispatch, call.event, call.pCback, none⟩
  if call.paramLen = 0 then btAppSendMsg (some msg) core
  else
    match call.pParams with
    | some params =>
        if 0 < call.paramLen ∧ mallocOk then
          btAppSendMsg (some { msg with param := some core.heap.next })
            { core with heap := core.heap.malloc (copiedParam call params) }
        else (false, core)
    | none => (false, core)

/-- The parameter that the stack passes to `bt_app_rc_ct_cb`. -/
structure CtParam where
  size : Nat
  positive : 0 < size
  memory : Nat → UInt8
  attrText : List UInt8

/-- The text gets a terminating zero and the parameter gets its new address. -/
def btAppAllocMetaBuffer (param : CtParam) (heap : Heap Content) : Params × Heap Content :=
  (⟨param.memory, some heap.next⟩, heap.malloc (.text (param.attrText ++ [0])))

def ctCall (event : CtEvent) (param : CtParam) (params : Params) : WorkCall :=
  ⟨some .btAvHdlAvrcCtEvt, .ct event, some params, param.size, none⟩

def btAppRcCtCb (event : CtEvent) (param : CtParam) (mallocOk : Bool) (core : Core) : Bool × Core :=
  match event with
  | .metadataRsp =>
      let (params, heap) := btAppAllocMetaBuffer param core.heap
      btAppWorkDispatch (ctCall event param params) mallocOk { core with heap := heap }
  | .connectionState | .passthroughRsp | .changeNotify | .remoteFeatures | .getRnCapabilitiesRsp =>
      btAppWorkDispatch (ctCall event param ⟨param.memory, none⟩) mallocOk core
  | .other _ => (false, core)

/-- The handler frees the text of a metadata response. -/
def btAvHdlAvrcCtEvt (event : Event) (param : Option Nat) (heap : Heap Content) :
    Except Fault (Heap Content) :=
  match event with
  | .ct .metadataRsp =>
      match param with
      | none => .error .nullDereference
      | some address =>
          match heap.contents address with
          | some (.param _ (some text)) => heap.free text
          | _ => .error .invalidFree
  | _ => .ok heap

/-- The callback that the task calls and the arguments of the call. -/
structure Invocation where
  cb : Callback
  event : Event
  param : Option Nat
  deriving DecidableEq, Repr

/-- The other handlers allocate and free no block. -/
def Invocation.run (invocation : Invocation) (heap : Heap Content) : Except Fault (Heap Content) :=
  match invocation.cb with
  | .btAvHdlAvrcCtEvt => btAvHdlAvrcCtEvt invocation.event invocation.param heap
  | _ => .ok heap

/-- The result is the call, if the message has a callback, and the heap after it. -/
def btAppWorkDispatched (msg : Msg) (heap : Heap Content) : Option Invocation × Except Fault (Heap Content) :=
  match msg.cb with
  | some cb => (some ⟨cb, msg.event, msg.param⟩, Invocation.run ⟨cb, msg.event, msg.param⟩ heap)
  | none => (none, .ok heap)

/-- The body of the loop after a message has arrived. -/
def btAppTaskHandler (msg : Msg) (heap : Heap Content) : Option Invocation × Except Fault (Heap Content) :=
  let (invocation, dispatched) :=
    if msg.sig = btAppSigWorkDispatch then btAppWorkDispatched msg heap else (none, .ok heap)
  (invocation, do
    let heap ← dispatched
    match msg.param with
    | some address => heap.free address
    | none => .ok heap)

/-- Any task can dispatch while `BtAppTask` receives and handles. -/
inductive WorkLabel where
  | dispatch (call : WorkCall) (mallocOk : Bool)
  | rcCtCb (event : CtEvent) (param : CtParam) (mallocOk : Bool)
  | receive
  | handle

/-- Only `bt_app_rc_ct_cb` passes the handler of the controller and a pointer to a text. -/
def WorkCall.plain (call : WorkCall) : Bool :=
  call.pCback != some .btAvHdlAvrcCtEvt && (call.pParams.bind Params.attrText).isNone

/-- The outcome of a call that dispatches is its result and its state. -/
def Core.outcome (core : Core) : WorkLabel → Option (Bool × Core)
  | .dispatch call mallocOk => if call.plain then some (btAppWorkDispatch call mallocOk core) else none
  | .rcCtCb event param mallocOk => some (btAppRcCtCb event param mallocOk core)
  | .receive | .handle => none

def Core.receive (core : Core) : Option Core :=
  match core.handling with
  | some _ => none
  | none => core.queue.receive.map fun (msg, queue) =>
      { core with queue := queue, handling := some msg }

def Core.handle (core : Core) : Option Core :=
  core.handling.map fun msg =>
    match (btAppTaskHandler msg core.heap).2 with
    | .ok heap => { core with heap := heap, handling := none }
    | .error fault => { core with fault := some fault, handling := none }

/-- A fault ends the run. -/
def Core.step (core : Core) (label : WorkLabel) : Option Core :=
  if core.fault.isSome then none
  else
    match label with
    | .receive => core.receive
    | .handle => core.handle
    | call => (core.outcome call).map Prod.snd

def workMachine : Machine Core WorkLabel := ⟨Core.start, Core.step⟩

end DesktopCube.Work
