import DesktopCube.Work.Ownership

namespace DesktopCube.Work
open Transition CMemory BoundedQueue

/-- The message of a call before it gets a parameter. -/
def WorkCall.msg (call : WorkCall) : Msg := ⟨btAppSigWorkDispatch, call.event, call.pCback, none⟩

/-- The call allocates a parameter block. -/
def WorkCall.Allocates (call : WorkCall) (mallocOk : Bool) : Prop :=
  call.pParams.isSome ∧ 0 < call.paramLen ∧ mallocOk

/-- A call changes nothing, sends a message or loses its parameter block. -/
inductive Dispatched (call : WorkCall) (mallocOk : Bool) (core : Core) : Bool × Core → Prop
  | refused (kept : ¬ call.Allocates mallocOk) : Dispatched call mallocOk core (false, core)
  | sentBare (queue : Queue Msg 10) (bare : call.paramLen = 0)
      (sent : core.queue.send call.msg = some queue) :
      Dispatched call mallocOk core (true, { core with queue := queue })
  | sentParam (params : Params) (queue : Queue Msg 10) (given : call.pParams = some params)
      (allocates : call.Allocates mallocOk)
      (sent : core.queue.send { call.msg with param := some core.heap.next } = some queue) :
      Dispatched call mallocOk core
        (true, { core with heap := core.heap.malloc (copiedParam call params), queue := queue })
  | lost (params : Params) (allocates : call.Allocates mallocOk) (full : ¬ core.queue.HasRoom) :
      Dispatched call mallocOk core
        (false, { core with heap := core.heap.malloc (copiedParam call params) })

theorem btAppSendMsg_cases (msg : Msg) (core : Core) :
    (∃ queue, core.queue.send msg = some queue ∧
      btAppSendMsg (some msg) core = (true, { core with queue := queue })) ∨
    ¬ core.queue.HasRoom ∧ btAppSendMsg (some msg) core = (false, core) := by
  by_cases room : core.queue.HasRoom
  · obtain ⟨queue, sent, _⟩ := Queue.send_of_room room msg
    exact .inl ⟨queue, sent, by rw [btAppSendMsg, sent]⟩
  · exact .inr ⟨room, by rw [btAppSendMsg, Queue.send_of_full room]⟩

theorem btAppWorkDispatch_dispatched (call : WorkCall) (mallocOk : Bool) (core : Core) :
    Dispatched call mallocOk core (btAppWorkDispatch call mallocOk core) := by
  rw [btAppWorkDispatch]
  by_cases bare : call.paramLen = 0
  · have kept : ¬ call.Allocates mallocOk := fun allocates => by
      have positive := allocates.2.1
      omega
    rw [if_pos bare]
    rcases btAppSendMsg_cases call.msg core with ⟨queue, sent, result⟩ | ⟨_, result⟩
    · exact result ▸ .sentBare queue bare sent
    · exact result ▸ .refused kept
  · rw [if_neg bare]
    cases given : call.pParams with
    | none => exact .refused fun allocates => by simp [WorkCall.Allocates, given] at allocates
    | some params =>
        by_cases enough : 0 < call.paramLen ∧ mallocOk
        · simp only [if_pos enough]
          rcases btAppSendMsg_cases { call.msg with param := some core.heap.next }
            { core with heap := core.heap.malloc (copiedParam call params) } with
            ⟨queue, sent, result⟩ | ⟨full, result⟩
          · exact result ▸ .sentParam params queue given ⟨by rw [given]; rfl, enough⟩ sent
          · exact result ▸ .lost params ⟨by rw [given]; rfl, enough⟩ full
        · simp only [if_neg enough]
          exact .refused fun allocates => enough allocates.2

theorem copiedParam_param (call : WorkCall) (params : Params) :
    ∃ bytes, copiedParam call params = .param bytes params.attrText := by
  unfold copiedParam
  split <;> exact ⟨_, rfl⟩

/-- No fault has happened and every live block has its message. -/
structure InCustody (core : Core) : Prop where
  sound : core.fault = none
  custody : Custody core.heap core.messages

namespace InCustody

variable {core next : Core}

theorem start : InCustody Core.start := ⟨rfl, Custody.empty⟩

theorem ownedOnce (safe : InCustody core) : OwnedOnce core := by
  refine ⟨safe.sound, safe.custody.live, safe.custody.once, fun address issued free => ?_⟩
  apply core.heap.freed_once issued
  by_contra live
  exact free ((safe.custody.live address).mp live)

/-- A sent message is the last one. -/
theorem messages_send (core : Core) {queue : Queue Msg 10} {msg : Msg} (sent : core.queue.send msg = some queue)
    (heap : Heap Content) :
    Core.messages { core with heap := heap, queue := queue } = core.messages ++ [msg] := by
  rw [Core.messages, Core.messages, Queue.send_some sent, List.append_assoc]

/-- A call without a text keeps the custody when no block is lost. -/
theorem dispatch (safe : InCustody core) {call : WorkCall} {mallocOk result : Bool}
    (plain : ¬ call.msg.FreesText) (noText : ∀ params, call.pParams = some params → params.attrText = none)
    (admitted : call.Allocates mallocOk → core.queue.HasRoom)
    (called : btAppWorkDispatch call mallocOk core = (result, next)) :
    InCustody next ∧ (result = false → next = core) := by
  have dispatched := btAppWorkDispatch_dispatched call mallocOk core
  rw [called] at dispatched
  cases dispatched with
  | refused => exact ⟨safe, fun _ => rfl⟩
  | sentBare queue bare sent =>
      refine ⟨⟨safe.sound, ?_⟩, nofun⟩
      rw [messages_send core sent]
      exact safe.custody.add_bare rfl rfl plain
  | sentParam params queue given allocates sent =>
      obtain ⟨bytes, copied⟩ := copiedParam_param call params
      refine ⟨⟨safe.sound, ?_⟩, nofun⟩
      rw [messages_send core sent, copied, noText params given]
      exact safe.custody.add_param rfl rfl plain
  | lost params allocates full => exact absurd (admitted allocates) full

/-- The other events of the controller come without a text. -/
theorem controller (safe : InCustody core) {event : CtEvent} {param : CtParam} {mallocOk result : Bool}
    (plain : event ≠ .metadataRsp) (admitted : Admitted core (.rcCtCb event param mallocOk))
    (called : btAppRcCtCb event param mallocOk core = (result, next)) :
    InCustody next ∧ (result = false → next = core) := by
  have noText : ∀ params, (ctCall event param ⟨param.memory, none⟩).pParams = some params →
      params.attrText = none := by
    intro params given
    cases given
    rfl
  have plainMsg : ¬ (ctCall event param ⟨param.memory, none⟩).msg.FreesText :=
    fun frees => plain (Event.ct.inj frees.2)
  cases event with
  | metadataRsp => exact absurd rfl plain
  | connectionState | passthroughRsp | changeNotify | remoteFeatures | getRnCapabilitiesRsp =>
      exact safe.dispatch plainMsg noText (fun allocates => admitted allocates.2.2) called
  | other event =>
      cases called
      exact ⟨safe, fun _ => rfl⟩

/-- A metadata response keeps the custody when its call is not refused. -/
theorem metadata (safe : InCustody core) {param : CtParam} {result : Bool} (room : core.queue.HasRoom)
    (called : btAppRcCtCb .metadataRsp param true core = (result, next)) :
    InCustody next ∧ result = true := by
  have positive := Int.natCast_pos.mpr param.positive
  have dispatched := btAppWorkDispatch_dispatched
    (ctCall .metadataRsp param ⟨param.memory, some core.heap.next⟩) true
    { core with heap := core.heap.malloc (.text (param.attrText ++ [0])) }
  simp only [btAppRcCtCb, btAppAllocMetaBuffer] at called
  rw [called] at dispatched
  cases dispatched with
  | refused kept => exact absurd ⟨rfl, positive, rfl⟩ kept
  | sentBare queue bare sent => exact absurd bare (Int.ne_of_gt positive)
  | sentParam params queue given allocates sent =>
      cases given
      obtain ⟨bytes, copied⟩ := copiedParam_param
        (ctCall .metadataRsp param ⟨param.memory, some core.heap.next⟩) ⟨param.memory, some core.heap.next⟩
      refine ⟨⟨safe.sound, ?_⟩, rfl⟩
      rw [copied]
      rw [messages_send core sent]
      exact safe.custody.add_metadata rfl rfl ⟨rfl, rfl⟩
  | lost params allocates full => exact absurd room full

/-- An admitted call keeps the custody and changes nothing when it fails. -/
theorem outcome (safe : InCustody core) {label : WorkLabel} {result : Bool}
    (admitted : Admitted core label) (called : core.outcome label = some (result, next)) :
    InCustody next ∧ (result = false → next = core) := by
  cases label with
  | dispatch call mallocOk =>
      simp only [Core.outcome] at called
      split at called
      · rename_i plain
        simp only [WorkCall.plain, Bool.and_eq_true, bne_iff_ne, Option.isNone_iff_eq_none] at plain
        apply safe.dispatch (fun frees => plain.1 frees.1) _ _ (Option.some.inj called)
        · intro params given
          simpa [given] using plain.2
        · exact fun allocates => admitted allocates.1 allocates.2.1 allocates.2.2
      · cases called
  | rcCtCb event param mallocOk =>
      by_cases metadata : event = .metadataRsp
      · subst metadata
        obtain ⟨rfl, room⟩ := admitted
        obtain ⟨kept, sent⟩ := safe.metadata room (Option.some.inj called)
        exact ⟨kept, fun failed => by rw [failed] at sent; cases sent⟩
      · exact safe.controller metadata admitted (Option.some.inj called)
  | receive | handle => cases called

theorem receive (safe : InCustody core) (taken : core.receive = some next) : InCustody next := by
  unfold Core.receive at taken
  split at taken
  · cases taken
  · rename_i idle
    obtain ⟨⟨msg, queue⟩, received, rfl⟩ := Option.map_eq_some_iff.mp taken
    refine ⟨safe.sound, ?_⟩
    have custody := safe.custody
    rw [Core.messages, idle, Queue.receive_some received] at custody
    exact custody

theorem handle (safe : InCustody core) (taken : core.handle = some next) : InCustody next := by
  obtain ⟨msg, handling, rfl⟩ := Option.map_eq_some_iff.mp taken
  have custody := safe.custody
  rw [Core.messages, handling] at custody
  obtain ⟨after, handled, rest⟩ := Custody.handle custody
  rw [handled]
  exact ⟨safe.sound, rest⟩

theorem step (safe : InCustody core) {label : WorkLabel} (admitted : Admitted core label)
    (taken : core.step label = some next) : InCustody next := by
  unfold Core.step at taken
  rw [safe.sound] at taken
  cases label with
  | dispatch call mallocOk =>
      obtain ⟨⟨result, _⟩, called, rfl⟩ := Option.map_eq_some_iff.mp taken
      exact (safe.outcome admitted called).1
  | rcCtCb event param mallocOk =>
      have mapped : (core.outcome (.rcCtCb event param mallocOk)).map Prod.snd = some next := taken
      obtain ⟨⟨result, _⟩, called, rfl⟩ := Option.map_eq_some_iff.mp mapped
      exact (safe.outcome admitted called).1
  | receive => exact safe.receive taken
  | handle => exact safe.handle taken

theorem reaches (reached : workMachine.Reaches Admitted Core.start core) : InCustody core :=
  reached.invariant InCustody start fun _ _ _ safe admitted taken => safe.step admitted taken

/-- A new block that no message owns stays without an owner. -/
theorem not_ownedOnce (safe : InCustody core) {heap : Heap Content}
    (kept : ∀ address, core.heap.contents address ≠ none → heap.contents address = core.heap.contents address)
    (leaked : heap.contents core.heap.next ≠ none) : ¬ OwnedOnce { core with heap := heap } := by
  intro owned
  have others : ∀ msg ∈ core.messages, ∀ address, msg.param = some address →
      heap.contents address = core.heap.contents address :=
    fun msg member address param => kept address (safe.custody.param_live member param)
  have member : core.heap.next ∈ core.messages.flatMap (Msg.owned heap) :=
    (owned.live core.heap.next).mp leaked
  rw [Custody.owned_frame safe.custody.sound others] at member
  exact (safe.custody.live core.heap.next).mpr member core.heap.contents_next

/-- A call that the queue refuses after the allocation loses the block. -/
theorem lost (safe : InCustody core) {call : WorkCall} {mallocOk result : Bool}
    (allocates : call.Allocates mallocOk) (full : ¬ core.queue.HasRoom)
    (called : btAppWorkDispatch call mallocOk core = (result, next)) : ¬ OwnedOnce next := by
  have dispatched := btAppWorkDispatch_dispatched call mallocOk core
  rw [called] at dispatched
  cases dispatched with
  | refused kept => exact absurd allocates kept
  | sentBare queue bare sent => exact absurd bare (Int.ne_of_gt allocates.2.1)
  | sentParam params queue given allocates sent => simp [Queue.send_of_full full] at sent
  | lost params =>
      apply safe.not_ownedOnce
      · intro address live
        obtain ⟨old, contents⟩ := Option.ne_none_iff_exists'.mp live
        rw [contents, Heap.malloc_contents_of_live contents]
      · simp [Heap.malloc_contents]

/-- A metadata response that is refused loses its text. -/
theorem lost_metadata (safe : InCustody core) {param : CtParam} {mallocOk result : Bool}
    (refused : ¬ (mallocOk ∧ core.queue.HasRoom))
    (called : btAppRcCtCb .metadataRsp param mallocOk core = (result, next)) : ¬ OwnedOnce next := by
  have loaded := btAppWorkDispatch_dispatched
    (ctCall .metadataRsp param ⟨param.memory, some core.heap.next⟩) mallocOk
    { core with heap := core.heap.malloc (.text (param.attrText ++ [0])) }
  simp only [btAppRcCtCb, btAppAllocMetaBuffer] at called
  rw [called] at loaded
  cases loaded with
  | refused kept =>
      apply safe.not_ownedOnce
      · intro address live
        obtain ⟨old, contents⟩ := Option.ne_none_iff_exists'.mp live
        rw [contents, Heap.malloc_contents_of_live contents]
      · simp [Heap.malloc_contents]
  | sentBare queue bare sent => exact absurd bare (Int.ne_of_gt (Int.natCast_pos.mpr param.positive))
  | sentParam params queue given allocates sent =>
      have room : core.queue.HasRoom := by
        by_contra full
        simp [Queue.send_of_full full] at sent
      exact absurd ⟨allocates.2.2, room⟩ refused
  | lost params =>
      apply safe.not_ownedOnce
      · intro address live
        obtain ⟨old, contents⟩ := Option.ne_none_iff_exists'.mp live
        rw [contents, Heap.malloc_contents_of_live (Heap.malloc_contents_of_live contents)]
      · rw [Heap.malloc_contents_of_live (by rw [Heap.malloc_contents, Function.update_self])]
        exact Option.some_ne_none _

/-- Every call that is not admitted loses a block. -/
theorem leaks (safe : InCustody core) {label : WorkLabel} (unfit : ¬ Admitted core label)
    (taken : core.step label = some next) : ¬ OwnedOnce next := by
  unfold Core.step at taken
  rw [safe.sound] at taken
  cases label with
  | dispatch call mallocOk =>
      obtain ⟨⟨result, _⟩, called, rfl⟩ := Option.map_eq_some_iff.mp taken
      simp only [Core.outcome] at called
      split at called
      · simp only [Admitted, Classical.not_imp] at unfit
        obtain ⟨given, positive, enough, full⟩ := unfit
        exact safe.lost ⟨given, positive, enough⟩ full (Option.some.inj called)
      · cases called
  | rcCtCb event param mallocOk =>
      have mapped : (core.outcome (.rcCtCb event param mallocOk)).map Prod.snd = some next := taken
      obtain ⟨⟨result, _⟩, called, rfl⟩ := Option.map_eq_some_iff.mp mapped
      have positive := Int.natCast_pos.mpr param.positive
      cases event with
      | metadataRsp => exact safe.lost_metadata unfit (Option.some.inj called)
      | connectionState | passthroughRsp | changeNotify | remoteFeatures | getRnCapabilitiesRsp =>
          simp only [Admitted, Classical.not_imp] at unfit
          exact safe.lost ⟨rfl, positive, unfit.1⟩ unfit.2 (Option.some.inj called)
      | other event => exact absurd trivial unfit
  | receive | handle => exact absurd trivial unfit

end InCustody

/-- The blocks are owned once in every run whose calls are admitted and in no longer run. -/
theorem ownedOnce_of_admitted {core : Core}
    (reached : workMachine.Reaches Admitted Core.start core) :
    OwnedOnce core ∧
      (∀ label next, Admitted core label → core.outcome label = some (false, next) → next = core) ∧
      ∀ label next, ¬ Admitted core label → workMachine.step core label = some next →
        ¬ OwnedOnce next := by
  have safe := InCustody.reaches reached
  exact ⟨safe.ownedOnce, fun _ _ admitted called => (safe.outcome admitted called).2 rfl,
    fun _ _ unfit taken => safe.leaks unfit taken⟩

/-- The parameter of a metadata response with one byte of text. -/
def shortMetadata : CtParam := ⟨1, Nat.one_pos, fun _ => 0, [65]⟩

/-- A handled metadata response leaves no live block. -/
theorem ownedOnce_of_admitted_metadata : ∃ core, OwnedOnce core ∧ core.messages = [] ∧
    core.heap.next = 2 := by
  have sent : workMachine.Reaches Admitted Core.start _ :=
    .step .refl (.rcCtCb .metadataRsp shortMetadata true) ⟨rfl, Nat.zero_lt_succ 9⟩ rfl
  have received : workMachine.Reaches Admitted Core.start _ := .step sent .receive trivial rfl
  have handled : workMachine.Reaches Admitted Core.start _ := .step received .handle trivial rfl
  exact ⟨_, (ownedOnce_of_admitted handled).1, rfl, rfl⟩

/-- A metadata response whose parameter block cannot be allocated leaves its text. -/
theorem not_ownedOnce_reachable : ¬ ∀ core, workMachine.Reachable core → OwnedOnce core := by
  intro owned
  have reached : workMachine.Reachable _ :=
    .step .refl (.rcCtCb .metadataRsp shortMetadata false) trivial rfl
  have live : (0 : Nat) ∈ Core.owned _ := ((owned _ reached).live 0).mp (by decide)
  exact absurd live (by decide)

end DesktopCube.Work
