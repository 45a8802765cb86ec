import DesktopCube.Work.Traffic

namespace DesktopCube.Work
open Transition CMemory BoundedQueue

/-- A callback sees its event, the bytes of its parameter and the text behind them. -/
structure Seen where
  cb : Option Callback
  event : Event
  param : Option (List UInt8)
  attrText : Option (List UInt8)
  deriving DecidableEq

def textAt (heap : Heap Content) (address : Nat) : Option (List UInt8) :=
  match heap.contents address with
  | some (.text bytes) => some bytes
  | _ => none

/-- The message is seen through the blocks that are live. -/
def Msg.seen (heap : Heap Content) (msg : Msg) : Seen :=
  match msg.param.bind heap.contents with
  | some (.param bytes attrText) => ⟨msg.cb, msg.event, some bytes, attrText.bind (textAt heap)⟩
  | _ => ⟨msg.cb, msg.event, none, none⟩

/-- The callback reads its arguments when the task calls it. -/
def Invocation.seen (heap : Heap Content) (invocation : Invocation) : Seen :=
  match invocation.param.bind heap.contents with
  | some (.param bytes attrText) => ⟨some invocation.cb, invocation.event, some bytes, attrText.bind (textAt heap)⟩
  | _ => ⟨some invocation.cb, invocation.event, none, none⟩

/-- A call shows the bytes that it copies and the text to which they point. -/
def WorkCall.seen (call : WorkCall) (heap : Heap Content) : Seen :=
  if call.paramLen = 0 then ⟨call.pCback, call.event, none, none⟩
  else
    match call.pParams.map (copiedParam call) with
    | some (.param bytes attrText) => ⟨call.pCback, call.event, some bytes, attrText.bind (textAt heap)⟩
    | _ => ⟨call.pCback, call.event, none, none⟩

section Views

variable {heap after : Heap Content} {msg : Msg} {messages : List Msg}

/-- A message reads only the blocks that it owns. -/
theorem Msg.seen_frame
    (kept : ∀ address ∈ msg.owned heap, after.contents address = heap.contents address) :
    msg.owned after = msg.owned heap ∧ msg.seen after = msg.seen heap := by
  unfold Msg.owned Msg.seen at *
  cases param : msg.param with
  | none => exact ⟨rfl, rfl⟩
  | some address =>
      simp only [param, Option.bind_some] at kept ⊢
      cases block : heap.contents address with
      | none =>
          simp only [block, List.mem_singleton, forall_eq] at kept
          simp only [kept, and_self]
      | some content =>
          cases content with
          | text bytes =>
              simp only [block, List.mem_singleton, forall_eq] at kept
              simp only [kept, and_self]
          | param bytes attrText =>
              cases attrText with
              | none =>
                  simp only [block, List.mem_singleton, forall_eq] at kept
                  simp only [kept, Option.bind_none, and_self]
              | some text =>
                  simp only [block, List.mem_cons, List.not_mem_nil, or_false, forall_eq_or_imp,
                    forall_eq] at kept
                  simp only [kept.1, Option.bind_some, textAt, kept.2, and_self]

/-- The messages own live blocks, share none and have callbacks. -/
structure Holding (heap : Heap Content) (messages : List Msg) : Prop where
  called : ∀ msg ∈ messages, msg.sig = btAppSigWorkDispatch ∧ msg.cb.isSome
  live : ∀ address ∈ messages.flatMap (Msg.owned heap), heap.contents address ≠ none
  once : (messages.flatMap (Msg.owned heap)).Nodup

namespace Holding

theorem perm {others : List Msg} (holding : Holding heap messages) (same : messages.Perm others) :
    Holding heap others := by
  have owned := same.flatMap_right (Msg.owned heap)
  refine ⟨fun msg member => holding.called msg (same.mem_iff.mpr member), fun address member => ?_, ?_⟩
  · exact holding.live address (owned.mem_iff.mpr member)
  · exact owned.nodup_iff.mp holding.once

theorem tail (holding : Holding heap (msg :: messages)) : Holding heap messages := by
  have once := holding.once
  rw [List.flatMap_cons, List.nodup_append] at once
  refine ⟨fun other member => holding.called other (List.mem_cons_of_mem msg member), fun address member => ?_,
    once.2.1⟩
  apply holding.live
  rw [List.flatMap_cons]
  exact List.mem_append_right _ member

/-- A heap that keeps the owned blocks keeps the messages and what they show. -/
theorem frame (holding : Holding heap messages)
    (kept : ∀ address ∈ messages.flatMap (Msg.owned heap),
      after.contents address = heap.contents address) :
    Holding after messages ∧ messages.flatMap (Msg.owned after) = messages.flatMap (Msg.owned heap) ∧
      ∀ msg ∈ messages, msg.seen after = msg.seen heap := by
  have each : ∀ msg ∈ messages, msg.owned after = msg.owned heap ∧ msg.seen after = msg.seen heap := by
    intro msg member
    apply Msg.seen_frame
    intro address owned
    exact kept address (List.mem_flatMap.mpr ⟨msg, member, owned⟩)
  have owned : messages.flatMap (Msg.owned after) = messages.flatMap (Msg.owned heap) :=
    List.flatMap_congr fun msg member => (each msg member).1
  refine ⟨⟨holding.called, ?_, owned ▸ holding.once⟩, owned, fun msg member => (each msg member).2⟩
  intro address member
  rw [owned] at member
  rw [kept address member]
  exact holding.live address member

/-- A new block leaves the messages. -/
theorem malloc (holding : Holding heap messages) (value : Content) :
    Holding (heap.malloc value) messages ∧
      messages.flatMap (Msg.owned (heap.malloc value)) = messages.flatMap (Msg.owned heap) ∧
      ∀ msg ∈ messages, msg.seen (heap.malloc value) = msg.seen heap := by
  apply holding.frame
  intro address member
  obtain ⟨old, contents⟩ := Option.ne_none_iff_exists'.mp (holding.live address member)
  rw [contents, Heap.malloc_contents_of_live contents]

/-- A message joins the others when it brings blocks of its own. -/
theorem add (holding : Holding heap messages) (called : msg.sig = btAppSigWorkDispatch ∧ msg.cb.isSome)
    (live : ∀ address ∈ msg.owned heap, heap.contents address ≠ none) (distinct : (msg.owned heap).Nodup)
    (apart : ∀ address ∈ msg.owned heap, address ∉ messages.flatMap (Msg.owned heap)) :
    Holding heap (messages ++ [msg]) := by
  have all : (messages ++ [msg]).flatMap (Msg.owned heap) =
      messages.flatMap (Msg.owned heap) ++ msg.owned heap := by
    rw [List.flatMap_append, List.flatMap_singleton]
  refine ⟨fun other member => ?_, fun address member => ?_, ?_⟩
  · rcases List.mem_append.mp member with old | new
    · exact holding.called other old
    · exact List.mem_singleton.mp new ▸ called
  · rw [all] at member
    rcases List.mem_append.mp member with old | new
    · exact holding.live address old
    · exact live address new
  · rw [all, List.nodup_append]
    exact ⟨holding.once, distinct, fun old owned new member same => apart new member (same ▸ owned)⟩

/-- A new parameter block joins the others with the text to which it points. -/
theorem add_param {bytes : List UInt8} {attrText : Option Nat} (holding : Holding heap messages)
    (called : msg.sig = btAppSigWorkDispatch ∧ msg.cb.isSome) (param : msg.param = some heap.next)
    (unowned : ∀ text, attrText = some text →
      heap.contents text ≠ none ∧ text ∉ messages.flatMap (Msg.owned heap)) :
    Holding (heap.malloc (.param bytes attrText)) (messages ++ [msg]) ∧
      (∀ other ∈ messages, other.seen (heap.malloc (.param bytes attrText)) = other.seen heap) ∧
      msg.seen (heap.malloc (.param bytes attrText)) =
        ⟨msg.cb, msg.event, some bytes, attrText.bind (textAt heap)⟩ := by
  obtain ⟨others, owned, same⟩ := holding.malloc (.param bytes attrText)
  have block : (heap.malloc (.param bytes attrText)).contents heap.next = some (.param bytes attrText) := by
    rw [Heap.malloc_contents, Function.update_self]
  have fresh : heap.next ∉ messages.flatMap (Msg.owned heap) :=
    fun member => holding.live heap.next member heap.contents_next
  cases attrText with
  | none =>
      have brings : msg.owned (heap.malloc (.param bytes none)) = [heap.next] := by
        simp only [Msg.owned, param, block]
      refine ⟨others.add called ?_ ?_ ?_, same, ?_⟩
      · rw [brings]
        simp [block]
      · rw [brings]
        exact List.nodup_singleton heap.next
      · rw [brings, owned]
        simpa only [List.mem_singleton, forall_eq] using fresh
      · simp only [Msg.seen, param, Option.bind_some, block, Option.bind_none]
  | some text =>
      obtain ⟨live, apart⟩ := unowned text rfl
      obtain ⟨old, contents⟩ := Option.ne_none_iff_exists'.mp live
      have textBlock : (heap.malloc (.param bytes (some text))).contents text = some old :=
        Heap.malloc_contents_of_live contents
      have different : heap.next ≠ text := by
        rintro rfl
        exact live heap.contents_next
      have brings : msg.owned (heap.malloc (.param bytes (some text))) = [heap.next, text] := by
        simp only [Msg.owned, param, block]
      refine ⟨others.add called ?_ ?_ ?_, same, ?_⟩
      · rw [brings]
        simp [block, textBlock]
      · rw [brings]
        simpa using different
      · rw [brings, owned]
        simpa only [List.mem_cons, List.not_mem_nil, or_false, forall_eq_or_imp, forall_eq] using
          And.intro fresh apart
      · simp only [Msg.seen, param, Option.bind_some, block, textAt, textBlock, contents]

/-- A prepared message joins the others and shows what its call held. -/
theorem prepare {call : WorkCall} {mallocOk : Bool} (holding : Holding heap messages)
    (called : call.pCback.isSome) (prepared : call.prepare mallocOk heap = some (msg, after))
    (unowned : ∀ params text, call.pParams = some params → params.attrText = some text →
      heap.contents text ≠ none ∧ text ∉ messages.flatMap (Msg.owned heap)) :
    Holding after (messages ++ [msg]) ∧ (∀ other ∈ messages, other.seen after = other.seen heap) ∧
      msg.seen after = call.seen heap := by
  unfold WorkCall.prepare at prepared
  unfold WorkCall.seen
  by_cases bare : call.paramLen = 0
  · rw [if_pos bare] at prepared ⊢
    cases prepared
    have brings : call.msg.owned heap = [] := rfl
    refine ⟨holding.add ⟨rfl, called⟩ ?_ ?_ ?_, fun _ _ => rfl, rfl⟩
    · simp [brings]
    · simp [brings]
    · simp [brings]
  · rw [if_neg bare] at prepared ⊢
    cases given : call.pParams with
    | none => simp [given] at prepared
    | some params =>
        by_cases enough : 0 < call.paramLen ∧ mallocOk
        · simp only [given, if_pos enough, Option.some.injEq, Prod.mk.injEq] at prepared
          obtain ⟨rfl, rfl⟩ := prepared
          obtain ⟨bytes, copied⟩ := copiedParam_param call params
          rw [Option.map_some, copied]
          exact holding.add_param ⟨rfl, called⟩ rfl fun text pointer => unowned params text given pointer
        · simp [given, if_neg enough] at prepared

end Holding

/-- A callback frees at most the text of its message. -/
theorem btAppWorkDispatched_kept (dispatched : (btAppWorkDispatched msg heap).2 = .ok after) {address : Nat}
    (other : address ∉ msg.owned heap) : after.contents address = heap.contents address := by
  by_cases frees : msg.FreesText
  · obtain ⟨controller, metadata⟩ := frees
    simp only [btAppWorkDispatched, controller, Invocation.run, btAvHdlAvrcCtEvt, metadata] at dispatched
    cases param : msg.param with
    | none => simp [param] at dispatched
    | some block =>
        simp only [param] at dispatched
        split at dispatched
        · rename_i bytes text contents
          rw [Heap.free_contents dispatched, Function.update_of_ne]
          rintro rfl
          exact other (by simp [Msg.owned, param, contents])
        · cases dispatched
  · rw [btAppWorkDispatched_plain frees] at dispatched
    cases dispatched
    rfl

/-- The task calls the callback of a message that has one, with what the message shows. -/
theorem btAppTaskHandler_invokes (called : msg.sig = btAppSigWorkDispatch ∧ msg.cb.isSome) :
    (btAppTaskHandler msg heap).1.map (Invocation.seen heap) = some (msg.seen heap) := by
  obtain ⟨work, callback⟩ := called
  obtain ⟨cb, given⟩ := Option.isSome_iff_exists.mp callback
  simp only [btAppTaskHandler, work, if_true, btAppWorkDispatched, given, Option.map_some, Invocation.seen, Msg.seen]

/-- The task changes only the blocks of the message that it handles. -/
theorem btAppTaskHandler_kept (called : msg.sig = btAppSigWorkDispatch)
    (handled : (btAppTaskHandler msg heap).2 = .ok after) {address : Nat}
    (other : address ∉ msg.owned heap) : after.contents address = heap.contents address := by
  simp only [btAppTaskHandler, called, if_true] at handled
  obtain ⟨middle, dispatched, released⟩ := bind_eq_ok.mp handled
  rw [← btAppWorkDispatched_kept dispatched other]
  cases param : msg.param with
  | none =>
      simp only [param] at released
      cases released
      rfl
  | some block =>
      simp only [param] at released
      rw [Heap.free_contents released, Function.update_of_ne]
      rintro rfl
      exact other (Msg.Sound.param_owned param)

/-- The other messages do not see that a message is handled. -/
theorem Holding.handle (holding : Holding heap (msg :: messages))
    (handled : (btAppTaskHandler msg heap).2 = .ok after) :
    Holding after messages ∧ ∀ other ∈ messages, other.seen after = other.seen heap := by
  have once := holding.once
  rw [List.flatMap_cons, List.nodup_append] at once
  have kept : ∀ address ∈ messages.flatMap (Msg.owned heap), after.contents address = heap.contents address := by
    intro address member
    apply btAppTaskHandler_kept (holding.called msg List.mem_cons_self).1 handled
    intro owned
    exact once.2.2 address owned address member rfl
  obtain ⟨framed, _, same⟩ := holding.tail.frame kept
  exact ⟨framed, same⟩

end Views

end DesktopCube.Work
