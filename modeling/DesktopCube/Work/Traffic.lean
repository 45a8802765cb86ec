import DesktopCube.Work.Leak

namespace DesktopCube.Work
open Transition CMemory BoundedQueue

/-- A call that reaches its send has made its message and any other call returns false. -/
def WorkCall.prepare (call : WorkCall) (mallocOk : Bool) (heap : Heap Content) :
    Option (Msg × Heap Content) :=
  if call.paramLen = 0 then some (call.msg, heap)
  else
    match call.pParams with
    | some params =>
        if 0 < call.paramLen ∧ mallocOk then
          some ({ call.msg with param := some heap.next }, heap.malloc (copiedParam call params))
        else none
    | none => none

/-- A dispatch prepares its message and then sends it. -/
theorem btAppWorkDispatch_eq_prepare (call : WorkCall) (mallocOk : Bool) (core : Core) :
    btAppWorkDispatch call mallocOk core =
      match call.prepare mallocOk core.heap with
      | some (msg, heap) => btAppSendMsg (some msg) { core with heap := heap }
      | none => (false, core) := by
  unfold btAppWorkDispatch WorkCall.prepare
  by_cases bare : call.paramLen = 0
  · rw [if_pos bare, if_pos bare]
    rfl
  · rw [if_neg bare, if_neg bare]
    cases call.pParams with
    | none => rfl
    | some params =>
        by_cases enough : 0 < call.paramLen ∧ mallocOk
        · simp only [if_pos enough]
          rfl
        · simp only [if_neg enough]

/-- The memory of the tasks that call and of the stack. -/
abbrev Memory := Nat → UInt8

def Memory.bytes (memory : Memory) (address length : Nat) : List UInt8 :=
  (List.range length).map fun offset => memory (address + offset)

/-- The arguments of `bt_app_work_dispatch` point into the memory of the caller. -/
structure Arguments where
  pCback : Callback
  event : Event
  pParams : Option Nat
  paramLen : Int
  pCopyCback : Option (List UInt8 → Memory → Int → List UInt8)

/-- The bytes of a direct call point to no metadata text. -/
def Arguments.call (arguments : Arguments) (memory : Memory) : WorkCall where
  pCback := some arguments.pCback
  event := arguments.event
  pParams := arguments.pParams.map fun address => ⟨fun offset => memory (address + offset), none⟩
  paramLen := arguments.paramLen
  pCopyCback := arguments.pCopyCback

/-- The arguments of `bt_app_rc_ct_cb` point into the memory of the stack. -/
structure CtReport where
  event : CtEvent
  param : Nat
  size : Nat
  positive : 0 < size
  attrText : Nat
  attrLength : Nat

def CtReport.ctParam (report : CtReport) (memory : Memory) : CtParam where
  size := report.size
  positive := report.positive
  memory := fun offset => memory (report.param + offset)
  attrText := memory.bytes report.attrText report.attrLength

/-- The call that `bt_app_rc_ct_cb` makes and the heap that it leaves to the call. -/
def btAppRcCtCall (event : CtEvent) (param : CtParam) (heap : Heap Content) :
    Option (WorkCall × Heap Content) :=
  match event with
  | .metadataRsp =>
      let (params, after) := btAppAllocMetaBuffer param heap
      some (ctCall event param params, after)
  | .connectionState | .passthroughRsp | .changeNotify | .remoteFeatures | .getRnCapabilitiesRsp =>
      some (ctCall event param ⟨param.memory, none⟩, heap)
  | .other _ => none

theorem btAppRcCtCb_eq_call (event : CtEvent) (param : CtParam) (mallocOk : Bool) (core : Core) :
    btAppRcCtCb event param mallocOk core =
      match btAppRcCtCall event param core.heap with
      | some (call, heap) => btAppWorkDispatch call mallocOk { core with heap := heap }
      | none => (false, core) := by
  cases event <;> rfl

/-- A draft is the message of a call that has not sent it yet. -/
structure Traffic where
  core : Core
  memory : Memory
  drafts : List Msg

/-- The tasks store bytes and make calls, and each call sends its draft at a later step. -/
inductive TrafficLabel where
  | store (address : Nat) (byte : UInt8)
  | dispatch (arguments : Arguments) (mallocOk : Bool)
  | rcCtCb (report : CtReport) (mallocOk : Bool)
  | send (draft : Nat)
  | receive
  | handle

def Traffic.start (memory : Memory) : Traffic := ⟨Core.start, memory, []⟩

/-- The call and the heap with which a label enters `bt_app_work_dispatch`. -/
def Traffic.entry (traffic : Traffic) : TrafficLabel → Option (WorkCall × Heap Content)
  | .dispatch arguments _ => some (arguments.call traffic.memory, traffic.core.heap)
  | .rcCtCb report _ =>
      btAppRcCtCall report.event (report.ctParam traffic.memory) traffic.core.heap
  | .store _ _ | .send _ | .receive | .handle => none

/-- The call allocates and copies before any other task can see its block. -/
def Traffic.enter (traffic : Traffic) (mallocOk : Bool) : Option (WorkCall × Heap Content) → Traffic
  | none => traffic
  | some (call, heap) =>
      match call.prepare mallocOk heap with
      | none => { traffic with core := { traffic.core with heap := heap } }
      | some (msg, after) =>
          { traffic with core := { traffic.core with heap := after }, drafts := traffic.drafts ++ [msg] }

def Traffic.step (traffic : Traffic) (label : TrafficLabel) : Option Traffic :=
  if traffic.core.fault.isSome then none
  else
    match label with
    | .store address byte =>
        some { traffic with memory := Function.update traffic.memory address byte }
    | .dispatch _ mallocOk | .rcCtCb _ mallocOk =>
        some (traffic.enter mallocOk (traffic.entry label))
    | .send draft =>
        traffic.drafts[draft]?.map fun msg =>
          { traffic with
            core := (btAppSendMsg (some msg) traffic.core).2
            drafts := traffic.drafts.eraseIdx draft }
    | .receive => traffic.core.receive.map fun core => { traffic with core := core }
    | .handle => traffic.core.handle.map fun core => { traffic with core := core }

def trafficMachine (memory : Memory) : Machine Traffic TrafficLabel :=
  ⟨Traffic.start memory, Traffic.step⟩

/-- A call that sends at once is the call of the source. -/
theorem Traffic.enter_send (traffic : Traffic) (memory : Memory) (mallocOk : Bool) (call : WorkCall)
    (heap : Heap Content) (sound : traffic.core.fault = none) :
    (trafficMachine memory).Reaches (fun _ _ => True) (traffic.enter mallocOk (some (call, heap)))
      { traffic with core := (btAppWorkDispatch call mallocOk { traffic.core with heap := heap }).2 } := by
  rw [btAppWorkDispatch_eq_prepare]
  cases prepared : call.prepare mallocOk heap with
  | none =>
      simp only [Traffic.enter, prepared]
      exact .refl
  | some pair =>
      obtain ⟨msg, after⟩ := pair
      simp only [Traffic.enter, prepared]
      apply Machine.Reaches.step .refl (.send traffic.drafts.length) trivial
      simp only [trafficMachine, Traffic.step, sound, Option.isSome_none, Bool.false_eq_true, if_false,
        List.getElem?_concat_length, Option.map_some, Option.some.injEq]
      rw [List.eraseIdx_append_of_length_le (Nat.le_refl _), Nat.sub_self]
      simp

/-- The machine takes every call of `bt_app_work_dispatch` and of `bt_app_rc_ct_cb`. -/
theorem trafficMachine_takes_calls (traffic : Traffic) (memory : Memory) (mallocOk : Bool)
    (sound : traffic.core.fault = none) :
    (∀ arguments : Arguments, (trafficMachine memory).Reaches (fun _ _ => True) traffic
      { traffic with
        core := (btAppWorkDispatch (arguments.call traffic.memory) mallocOk traffic.core).2 }) ∧
    ∀ report : CtReport, (trafficMachine memory).Reaches (fun _ _ => True) traffic
      { traffic with
        core := (btAppRcCtCb report.event (report.ctParam traffic.memory) mallocOk traffic.core).2 } := by
  constructor
  · intro arguments
    have entered : (trafficMachine memory).Reaches (fun _ _ => True) traffic
        (traffic.enter mallocOk (traffic.entry (.dispatch arguments mallocOk))) := by
      apply Machine.Reaches.step .refl (.dispatch arguments mallocOk) trivial
      simp only [trafficMachine, Traffic.step, sound, Option.isSome_none, Bool.false_eq_true, if_false]
    exact entered.trans (traffic.enter_send memory mallocOk _ _ sound)
  · intro report
    have entered : (trafficMachine memory).Reaches (fun _ _ => True) traffic
        (traffic.enter mallocOk (traffic.entry (.rcCtCb report mallocOk))) := by
      apply Machine.Reaches.step .refl (.rcCtCb report mallocOk) trivial
      simp only [trafficMachine, Traffic.step, sound, Option.isSome_none, Bool.false_eq_true, if_false]
    rw [btAppRcCtCb_eq_call]
    rw [Traffic.entry] at entered
    cases called : btAppRcCtCall report.event (report.ctParam traffic.memory) traffic.core.heap with
    | none =>
        rw [called] at entered
        exact entered
    | some pair =>
        rw [called] at entered
        exact entered.trans (traffic.enter_send memory mallocOk _ _ sound)

end DesktopCube.Work
