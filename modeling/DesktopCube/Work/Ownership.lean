import DesktopCube.Work.Dispatch

namespace DesktopCube.Work
open Transition CMemory BoundedQueue

/-- The handler of a metadata response frees a text. -/
def Msg.FreesText (msg : Msg) : Prop :=
  msg.cb = some .btAvHdlAvrcCtEvt ∧ msg.event = .ct .metadataRsp

/-- A message owns its parameter block and the text to which the block points. -/
def Msg.owned (heap : Heap Content) (msg : Msg) : List Nat :=
  match msg.param with
  | none => []
  | some address =>
      match heap.contents address with
      | some (.param _ (some text)) => [address, text]
      | _ => [address]

/-- The messages that are handled or wait in the queue. -/
def Core.messages (core : Core) : List Msg := core.handling.toList ++ core.queue.items

def Core.owned (core : Core) : List Nat := core.messages.flatMap (Msg.owned core.heap)

/-- The live blocks are the blocks of the messages and all others were freed once. -/
structure OwnedOnce (core : Core) : Prop where
  sound : core.fault = none
  live : ∀ address, core.heap.contents address ≠ none ↔ address ∈ core.owned
  once : core.owned.Nodup
  freed : ∀ address, address < core.heap.next → address ∉ core.owned →
    core.heap.freed.count address = 1

/-- No call loses a block that it has allocated. -/
def Admitted (core : Core) : WorkLabel → Prop
  | .dispatch call mallocOk => call.pParams.isSome → 0 < call.paramLen → mallocOk → core.queue.HasRoom
  | .rcCtCb event _ mallocOk =>
      match event with
      | .metadataRsp => mallocOk ∧ core.queue.HasRoom
      | .other _ => True
      | _ => mallocOk → core.queue.HasRoom
  | .receive | .handle => True

/-- The block of a message holds a pointer exactly when its handler frees a text. -/
structure Msg.Sound (heap : Heap Content) (msg : Msg) : Prop where
  sig : msg.sig = btAppSigWorkDispatch
  bare : msg.param = none → ¬ msg.FreesText
  block : ∀ address, msg.param = some address → ∃ bytes attrText,
    heap.contents address = some (.param bytes attrText) ∧ (attrText ≠ none ↔ msg.FreesText)

/-- The messages share no block and leave none without an owner. -/
structure Custody (heap : Heap Content) (messages : List Msg) : Prop where
  sound : ∀ msg ∈ messages, msg.Sound heap
  live : ∀ address, heap.contents address ≠ none ↔ address ∈ messages.flatMap (Msg.owned heap)
  once : (messages.flatMap (Msg.owned heap)).Nodup

namespace Msg.Sound

variable {heap after : Heap Content} {msg : Msg}

/-- A message does not see a change at the blocks of others. -/
theorem frame (sound : msg.Sound heap)
    (kept : ∀ address, msg.param = some address → after.contents address = heap.contents address) :
    msg.Sound after ∧ msg.owned after = msg.owned heap := by
  constructor
  · refine ⟨sound.sig, sound.bare, fun address param => ?_⟩
    rw [kept address param]
    exact sound.block address param
  · unfold Msg.owned
    cases param : msg.param with
    | none => rfl
    | some address => simp only [kept address param]

theorem of_block {address : Nat} {bytes : List UInt8} {attrText : Option Nat}
    (param : msg.param = some address) (sig : msg.sig = btAppSigWorkDispatch)
    (block : heap.contents address = some (.param bytes attrText))
    (pointer : attrText ≠ none ↔ msg.FreesText) : msg.Sound heap := by
  refine ⟨sig, fun bare => ?_, fun other same => ?_⟩
  · rw [bare] at param
    cases param
  · rw [param] at same
    cases same
    exact ⟨bytes, attrText, block, pointer⟩

theorem param_owned {address : Nat} (param : msg.param = some address) :
    address ∈ msg.owned heap := by
  simp only [Msg.owned, param]
  split <;> exact List.mem_cons_self

end Msg.Sound

namespace Custody

variable {heap after : Heap Content} {messages rest : List Msg} {msg : Msg}

theorem empty : Custody Heap.empty [] := ⟨nofun, by simp [Heap.empty], List.nodup_nil⟩

theorem param_live (custody : Custody heap messages) (member : msg ∈ messages) {address : Nat}
    (param : msg.param = some address) : heap.contents address ≠ none :=
  (custody.live address).mpr (List.mem_flatMap.mpr ⟨msg, member, Msg.Sound.param_owned param⟩)

/-- A heap that keeps the blocks of the messages keeps what they own. -/
theorem owned_frame (sound : ∀ msg ∈ messages, msg.Sound heap)
    (kept : ∀ msg ∈ messages, ∀ address, msg.param = some address →
      after.contents address = heap.contents address) :
    messages.flatMap (Msg.owned after) = messages.flatMap (Msg.owned heap) :=
  List.flatMap_congr fun msg member => ((sound msg member).frame (kept msg member)).2

/-- A message brings exactly its new blocks into the heap. -/
theorem extend (custody : Custody heap messages) (added : List Nat) (sound : msg.Sound after)
    (owned : msg.owned after = added) (fresh : ∀ address ∈ added, heap.contents address = none)
    (distinct : added.Nodup)
    (kept : ∀ address, heap.contents address ≠ none → after.contents address = heap.contents address)
    (grown : ∀ address, after.contents address ≠ none ↔
      heap.contents address ≠ none ∨ address ∈ added) :
    Custody after (messages ++ [msg]) := by
  have others : ∀ msg ∈ messages, ∀ address, msg.param = some address →
      after.contents address = heap.contents address :=
    fun msg member address param => kept address (custody.param_live member param)
  have all : (messages ++ [msg]).flatMap (Msg.owned after) =
      messages.flatMap (Msg.owned heap) ++ added := by
    rw [List.flatMap_append, owned_frame custody.sound others, List.flatMap_singleton, owned]
  refine ⟨fun other member => ?_, fun address => ?_, ?_⟩
  · rcases List.mem_append.mp member with member | last
    · exact ((custody.sound other member).frame (others other member)).1
    · exact List.mem_singleton.mp last ▸ sound
  · rw [all, List.mem_append, grown address, custody.live address]
  · rw [all, List.nodup_append]
    refine ⟨custody.once, distinct, fun old owned new member same => ?_⟩
    exact (custody.live old).mpr owned (same ▸ fresh new member)

/-- The first message takes its blocks out of the heap. -/
theorem shrink (custody : Custody heap (msg :: rest))
    (removed : ∀ address, after.contents address =
      if address ∈ msg.owned heap then none else heap.contents address) :
    Custody after rest := by
  have disjoint := custody.once
  rw [List.flatMap_cons, List.nodup_append] at disjoint
  obtain ⟨_, once, apart⟩ := disjoint
  have others : ∀ other ∈ rest, ∀ address, other.param = some address →
      after.contents address = heap.contents address := by
    intro other member address param
    rw [removed, if_neg]
    intro owned
    exact apart address owned address
      (List.mem_flatMap.mpr ⟨other, member, Msg.Sound.param_owned param⟩) rfl
  have sound : ∀ other ∈ rest, other.Sound heap :=
    fun other member => custody.sound other (List.mem_cons_of_mem msg member)
  refine ⟨fun other member => ((sound other member).frame (others other member)).1,
    fun address => ?_, ?_⟩
  · rw [owned_frame sound others, removed]
    have live := custody.live address
    rw [List.flatMap_cons, List.mem_append] at live
    by_cases owned : address ∈ msg.owned heap
    · rw [if_pos owned]
      exact ⟨fun absent => absurd rfl absent, fun member => absurd rfl (apart address owned address member)⟩
    · rw [if_neg owned, live]
      exact or_iff_right owned
  · rw [owned_frame sound others]
    exact once

/-- A message without a parameter leaves the heap. -/
theorem add_bare (custody : Custody heap messages) (bare : msg.param = none)
    (sig : msg.sig = btAppSigWorkDispatch) (plain : ¬ msg.FreesText) :
    Custody heap (messages ++ [msg]) := by
  apply custody.extend [] _ _ nofun List.nodup_nil (fun _ _ => rfl) (by simp)
  · exact ⟨sig, fun _ => plain, fun address param => by rw [bare] at param; cases param⟩
  · rw [Msg.owned, bare]

/-- A message with a parameter owns the new block. -/
theorem add_param {bytes : List UInt8} (custody : Custody heap messages)
    (param : msg.param = some heap.next) (sig : msg.sig = btAppSigWorkDispatch)
    (plain : ¬ msg.FreesText) :
    Custody (heap.malloc (.param bytes none)) (messages ++ [msg]) := by
  have block : (heap.malloc (.param bytes none)).contents heap.next = some (.param bytes none) := by
    rw [Heap.malloc_contents, Function.update_self]
  apply custody.extend [heap.next]
  · exact Msg.Sound.of_block param sig block (by simp [plain])
  · simp only [Msg.owned, param, block]
  · intro address member
    rw [List.mem_singleton.mp member, heap.contents_next]
  · exact List.nodup_singleton _
  · intro address live
    obtain ⟨old, contents⟩ := Option.ne_none_iff_exists'.mp live
    rw [contents, Heap.malloc_contents_of_live contents]
  · intro address
    rw [Heap.malloc_contents, List.mem_singleton]
    by_cases fresh : address = heap.next
    · simp [fresh]
    · simp [fresh]

/-- A metadata response owns its parameter block and its text. -/
theorem add_metadata {bytes text : List UInt8} (custody : Custody heap messages)
    (param : msg.param = some (heap.next + 1)) (sig : msg.sig = btAppSigWorkDispatch)
    (frees : msg.FreesText) :
    Custody ((heap.malloc (.text text)).malloc (.param bytes (some heap.next)))
      (messages ++ [msg]) := by
  have block : ((heap.malloc (.text text)).malloc (.param bytes (some heap.next))).contents
      (heap.next + 1) = some (.param bytes (some heap.next)) := by
    rw [Heap.malloc_contents, Heap.malloc_next, Function.update_self]
  apply custody.extend [heap.next + 1, heap.next]
  · exact Msg.Sound.of_block param sig block (by simp [frees])
  · simp only [Msg.owned, param, block]
  · intro address member
    by_contra live
    have old := (heap.issued address).mpr (.inl live)
    simp only [List.mem_cons, List.not_mem_nil, or_false] at member
    omega
  · simp
  · intro address live
    obtain ⟨old, contents⟩ := Option.ne_none_iff_exists'.mp live
    rw [contents, Heap.malloc_contents_of_live (Heap.malloc_contents_of_live contents)]
  · intro address
    rw [Heap.malloc_contents, Heap.malloc_contents, Heap.malloc_next]
    by_cases last : address = heap.next + 1
    · simp [last]
    · by_cases first : address = heap.next
      · simp [first]
      · simp [last, first]

end Custody

/-- Only the handler of a metadata response changes the heap. -/
theorem btAppWorkDispatched_plain {msg : Msg} {heap : Heap Content} (plain : ¬ msg.FreesText) :
    (btAppWorkDispatched msg heap).2 = .ok heap := by
  cases callback : msg.cb with
  | none => simp only [btAppWorkDispatched, callback]
  | some cb =>
      cases cb with
      | btAvHdlAvrcCtEvt =>
          simp only [btAppWorkDispatched, callback, Invocation.run, btAvHdlAvrcCtEvt]
          split
          · rename_i metadata
            exact absurd ⟨callback, metadata⟩ plain
          · rfl
      | btAvHdlStackEvt | btAvHdlA2dEvt | btAvHdlAvrcTgEvt | other =>
          simp only [btAppWorkDispatched, callback, Invocation.run]

/-- The task frees the blocks that a sound message owns. -/
theorem btAppTaskHandler_removes {heap : Heap Content} {msg : Msg} (sound : msg.Sound heap)
    (live : ∀ address ∈ msg.owned heap, heap.contents address ≠ none) (distinct : (msg.owned heap).Nodup) :
    ∃ after, (btAppTaskHandler msg heap).2 = .ok after ∧
      ∀ address, after.contents address = if address ∈ msg.owned heap then none else heap.contents address := by
  cases param : msg.param with
  | none =>
      refine ⟨heap, ?_, fun address => by simp [Msg.owned, param]⟩
      simp only [btAppTaskHandler, sound.sig, if_true, param,
        btAppWorkDispatched_plain (sound.bare param)]
      rfl
  | some address =>
      obtain ⟨bytes, attrText, block, pointer⟩ := sound.block address param
      cases attrText with
      | none =>
          have plain : ¬ msg.FreesText := fun frees => absurd rfl (pointer.mpr frees)
          obtain ⟨after, freed, contents⟩ := Heap.free_live block
          refine ⟨after, ?_, fun other => ?_⟩
          · simp only [btAppTaskHandler, sound.sig, if_true, param, btAppWorkDispatched_plain plain]
            exact freed
          · rw [contents, Function.update_apply]
            simp [Msg.owned, param, block]
      | some text =>
          obtain ⟨controller, metadata⟩ := pointer.mp (Option.some_ne_none text)
          have owned : msg.owned heap = [address, text] := by simp only [Msg.owned, param, block]
          rw [owned] at live distinct
          have apart : address ≠ text := by simpa using distinct
          obtain ⟨value, textBlock⟩ := Option.ne_none_iff_exists'.mp (live text (by simp))
          obtain ⟨middle, freedText, middleContents⟩ := Heap.free_live textBlock
          have blockLeft : middle.contents address = some (.param bytes (some text)) := by
            rw [middleContents, Function.update_of_ne apart, block]
          obtain ⟨after, freed, contents⟩ := Heap.free_live blockLeft
          refine ⟨after, ?_, fun other => ?_⟩
          · simp only [btAppTaskHandler, sound.sig, if_true, btAppWorkDispatched, controller, Invocation.run,
              btAvHdlAvrcCtEvt, metadata, param, block, freedText]
            exact freed
          · rw [contents, middleContents, owned]
            by_cases first : other = address
            · simp [first]
            · by_cases second : other = text
              · simp [second, Function.update_apply]
              · simp [first, second]

/-- The task frees the blocks of the message that it handles. -/
theorem Custody.handle {heap : Heap Content} {msg : Msg} {rest : List Msg}
    (custody : Custody heap (msg :: rest)) :
    ∃ after, (btAppTaskHandler msg heap).2 = .ok after ∧ Custody after rest := by
  have once := custody.once
  rw [List.flatMap_cons, List.nodup_append] at once
  have live : ∀ address ∈ msg.owned heap, heap.contents address ≠ none := by
    intro address owned
    apply (custody.live address).mpr
    rw [List.flatMap_cons]
    exact List.mem_append_left _ owned
  obtain ⟨after, handled, removed⟩ :=
    btAppTaskHandler_removes (custody.sound msg List.mem_cons_self) live once.1
  exact ⟨after, handled, custody.shrink removed⟩

end DesktopCube.Work
