import DesktopCube.Work.Traffic
import Mathlib.Data.List.Perm.Basic

namespace DesktopCube.Work
open Transition CMemory BoundedQueue

/-- The live blocks are the blocks of the messages and the blocks that no message can free any more. -/
structure Estate (heap : Heap Content) (messages : List Msg) (lost : List Nat) : Prop where
  sound : ∀ msg ∈ messages, msg.Sound heap
  live : ∀ address, heap.contents address ≠ none ↔ address ∈ messages.flatMap (Msg.owned heap) ++ lost
  once : (messages.flatMap (Msg.owned heap) ++ lost).Nodup

/-- The text that a call hands over together with its parameter. -/
def WorkCall.texts (call : WorkCall) : List Nat := (call.pParams.bind Params.attrText).toList

namespace Estate

variable {heap : Heap Content} {messages others : List Msg} {msg : Msg} {lost : List Nat}

theorem empty : Estate Heap.empty [] [] :=
  ⟨fun _ member => absurd member List.not_mem_nil, fun _ => by simp [Heap.empty], List.nodup_nil⟩

theorem perm (estate : Estate heap messages lost) (same : messages.Perm others) : Estate heap others lost := by
  have blocks := (same.flatMap_right (Msg.owned heap)).append_right lost
  refine ⟨fun msg member => estate.sound msg (same.mem_iff.mpr member), fun address => ?_, ?_⟩
  · rw [← blocks.mem_iff]
    exact estate.live address
  · exact blocks.nodup_iff.mp estate.once

theorem param_live (estate : Estate heap messages lost) (member : msg ∈ messages) {address : Nat}
    (param : msg.param = some address) : heap.contents address ≠ none := by
  apply (estate.live address).mpr
  exact List.mem_append_left _ (List.mem_flatMap.mpr ⟨msg, member, Msg.Sound.param_owned param⟩)

/-- A new block belongs to no message at first. -/
theorem malloc (estate : Estate heap messages lost) (value : Content) :
    Estate (heap.malloc value) messages (heap.next :: lost) := by
  have kept : ∀ msg ∈ messages, ∀ address, msg.param = some address →
      (heap.malloc value).contents address = heap.contents address := by
    intro msg member address param
    obtain ⟨old, contents⟩ := Option.ne_none_iff_exists'.mp (estate.param_live member param)
    rw [contents, Heap.malloc_contents_of_live contents]
  have blocks : (messages.flatMap (Msg.owned heap) ++ heap.next :: lost).Perm
      (heap.next :: (messages.flatMap (Msg.owned heap) ++ lost)) := List.perm_middle
  refine ⟨fun msg member => ((estate.sound msg member).frame (kept msg member)).1, fun address => ?_, ?_⟩
  · rw [Custody.owned_frame estate.sound kept, blocks.mem_iff, List.mem_cons, ← estate.live,
      Heap.malloc_contents]
    by_cases fresh : address = heap.next
    · simp [fresh]
    · simp [fresh]
  · rw [Custody.owned_frame estate.sound kept, blocks.nodup_iff, List.nodup_cons]
    exact ⟨fun member => (estate.live heap.next).mpr member heap.contents_next, estate.once⟩

/-- A message takes over its blocks. -/
theorem adopt (estate : Estate heap messages (msg.owned heap ++ lost)) (sound : msg.Sound heap) :
    Estate heap (messages ++ [msg]) lost := by
  have all : (messages ++ [msg]).flatMap (Msg.owned heap) ++ lost =
      messages.flatMap (Msg.owned heap) ++ (msg.owned heap ++ lost) := by
    rw [List.flatMap_append, List.flatMap_singleton, List.append_assoc]
  refine ⟨fun other member => ?_, fun address => ?_, ?_⟩
  · rcases List.mem_append.mp member with old | new
    · exact estate.sound other old
    · exact List.mem_singleton.mp new ▸ sound
  · rw [all]
    exact estate.live address
  · rw [all]
    exact estate.once

/-- A dropped message loses its blocks. -/
theorem lose (estate : Estate heap (msg :: messages) lost) : Estate heap messages (msg.owned heap ++ lost) := by
  have blocks : ((msg :: messages).flatMap (Msg.owned heap) ++ lost).Perm
      (messages.flatMap (Msg.owned heap) ++ (msg.owned heap ++ lost)) := by
    rw [List.flatMap_cons, ← List.append_assoc]
    exact List.perm_append_comm.append_right lost
  refine ⟨fun other member => estate.sound other (List.mem_cons_of_mem msg member), fun address => ?_, ?_⟩
  · rw [← blocks.mem_iff]
    exact estate.live address
  · exact blocks.nodup_iff.mp estate.once

/-- The task frees the blocks of its message and no other one. -/
theorem handle (estate : Estate heap (msg :: messages) lost) :
    ∃ after, (btAppTaskHandler msg heap).2 = .ok after ∧ Estate after messages lost := by
  have split := estate.lose
  have once := split.once
  rw [List.nodup_append, List.nodup_append] at once
  obtain ⟨_, ⟨distinct, _, lostApart⟩, apart⟩ := once
  have live : ∀ address ∈ msg.owned heap, heap.contents address ≠ none := by
    intro address owned
    apply (split.live address).mpr
    exact List.mem_append_right _ (List.mem_append_left lost owned)
  obtain ⟨after, handled, removed⟩ :=
    btAppTaskHandler_removes (estate.sound msg List.mem_cons_self) live distinct
  have kept : ∀ other ∈ messages, ∀ address, other.param = some address →
      after.contents address = heap.contents address := by
    intro other member address param
    rw [removed, if_neg]
    intro owned
    apply apart address _ address (List.mem_append_left lost owned) rfl
    exact List.mem_flatMap.mpr ⟨other, member, Msg.Sound.param_owned param⟩
  have owned := Custody.owned_frame split.sound kept
  refine ⟨after, handled, fun other member => ((split.sound other member).frame (kept other member)).1,
    fun address => ?_, ?_⟩
  · have live := split.live address
    rw [removed, owned]
    by_cases mine : address ∈ msg.owned heap
    · rw [if_pos mine, List.mem_append]
      apply iff_of_false (fun gone => gone rfl)
      rintro (other | lost)
      · exact apart address other address (List.mem_append_left _ mine) rfl
      · exact lostApart address mine address lost rfl
    · rw [if_neg mine, live, List.mem_append, List.mem_append, List.mem_append, or_iff_right mine]
  · have once := split.once
    rw [← List.append_assoc] at once
    rw [owned]
    exact once.sublist ((List.sublist_append_left _ _).append_right lost)

/-- A prepared message takes over the text of its call. -/
theorem prepare {after : Heap Content} {call : WorkCall} {mallocOk : Bool}
    (estate : Estate heap messages (call.texts ++ lost)) (frees : call.msg.FreesText ↔ call.texts ≠ [])
    (bare : call.paramLen = 0 → call.texts = []) (prepared : call.prepare mallocOk heap = some (msg, after)) :
    Estate after (messages ++ [msg]) lost := by
  unfold WorkCall.prepare at prepared
  split at prepared
  · rename_i empty
    cases prepared
    rw [bare empty] at estate frees
    apply adopt estate
    exact ⟨rfl, fun _ frees' => frees.mp frees' rfl, fun address param => by cases param⟩
  · split at prepared
    · rename_i params given
      split at prepared
      · cases prepared
        obtain ⟨bytes, copied⟩ := copiedParam_param call params
        have texts : call.texts = params.attrText.toList := by rw [WorkCall.texts, given, Option.bind_some]
        have block : (heap.malloc (copiedParam call params)).contents heap.next =
            some (.param bytes params.attrText) := by
          rw [copied, Heap.malloc_contents, Function.update_self]
        have owned : Msg.owned (heap.malloc (copiedParam call params))
            { call.msg with param := some heap.next } = heap.next :: call.texts := by
          rw [texts]
          cases attrText : params.attrText with
          | none => simp [Msg.owned, block, attrText]
          | some text => simp [Msg.owned, block, attrText]
        apply adopt
        · rw [owned]
          exact estate.malloc _
        · apply Msg.Sound.of_block rfl rfl block
          show _ ↔ call.msg.FreesText
          rw [frees, texts]
          cases params.attrText with
          | none => simp
          | some text => simp
      · cases prepared
    · cases prepared

end Estate

/-- A call that returns false loses the blocks that it has allocated. -/
def Traffic.losses (traffic : Traffic) (label : TrafficLabel) : List Nat :=
  match label with
  | .dispatch _ mallocOk | .rcCtCb _ mallocOk =>
      match traffic.entry label with
      | some (call, heap) => if (call.prepare mallocOk heap).isNone then call.texts else []
      | none => []
  | .send draft =>
      match traffic.drafts[draft]? with
      | some msg => if (btAppSendMsg (some msg) traffic.core).1 then [] else msg.owned traffic.core.heap
      | none => []
  | .store _ _ | .receive | .handle => []

/-- The machine with the blocks that its calls have lost. -/
def lossMachine (memory : Memory) : Machine (Traffic × List Nat) TrafficLabel :=
  (trafficMachine memory).recorded [] fun traffic label _ lost => traffic.losses label ++ lost

/-- Only `bt_app_rc_ct_cb` passes the handler of the controller. -/
def TrafficLabel.Plain : TrafficLabel → Prop
  | .dispatch arguments _ => arguments.pCback ≠ .btAvHdlAvrcCtEvt
  | _ => True

structure Audited (traffic : Traffic) (lost : List Nat) : Prop where
  sound : traffic.core.fault = none
  estate : Estate traffic.core.heap (traffic.core.messages ++ traffic.drafts) lost

namespace Audited

variable {traffic next : Traffic} {lost : List Nat}

/-- A call keeps its text until it returns false. -/
theorem enter {call : WorkCall} {heap : Heap Content} (audited : Audited traffic lost) (mallocOk : Bool)
    (frees : call.msg.FreesText ↔ call.texts ≠ []) (bare : call.paramLen = 0 → call.texts = [])
    (estate : Estate heap (traffic.core.messages ++ traffic.drafts) (call.texts ++ lost)) :
    Audited (traffic.enter mallocOk (some (call, heap)))
      ((if (call.prepare mallocOk heap).isNone then call.texts else []) ++ lost) := by
  cases prepared : call.prepare mallocOk heap with
  | none =>
      simp only [Traffic.enter, prepared]
      exact ⟨audited.sound, estate⟩
  | some pair =>
      obtain ⟨msg, after⟩ := pair
      have adopted := estate.prepare frees bare prepared
      rw [List.append_assoc] at adopted
      simp only [Traffic.enter, prepared]
      exact ⟨audited.sound, adopted⟩

theorem send {draft : Nat} {msg : Msg} (audited : Audited traffic lost)
    (drafted : traffic.drafts[draft]? = some msg) :
    Audited { traffic with core := (btAppSendMsg (some msg) traffic.core).2, drafts := traffic.drafts.eraseIdx draft }
      ((if (btAppSendMsg (some msg) traffic.core).1 then [] else msg.owned traffic.core.heap) ++ lost) := by
  have moved : (traffic.core.messages ++ traffic.drafts).Perm
      (msg :: (traffic.core.messages ++ traffic.drafts.eraseIdx draft)) := by
    obtain ⟨inside, rfl⟩ := List.getElem?_eq_some_iff.mp drafted
    exact ((List.getElem_cons_eraseIdx_perm inside).symm.append_left traffic.core.messages).trans
      List.perm_middle
  have estate := audited.estate.perm moved
  rcases btAppSendMsg_cases msg traffic.core with ⟨queue, sent, result⟩ | ⟨_, result⟩
  · rw [result]
    refine ⟨audited.sound, ?_⟩
    show Estate traffic.core.heap (Core.messages _ ++ _) lost
    rw [InCustody.messages_send traffic.core sent traffic.core.heap, List.append_assoc, List.singleton_append]
    exact estate.perm List.perm_middle.symm
  · rw [result]
    exact ⟨audited.sound, estate.lose⟩

theorem dispatch {arguments : Arguments} (audited : Audited traffic lost) (mallocOk : Bool)
    (plain : arguments.pCback ≠ .btAvHdlAvrcCtEvt) :
    Audited (traffic.enter mallocOk (traffic.entry (.dispatch arguments mallocOk)))
      (traffic.losses (.dispatch arguments mallocOk) ++ lost) := by
  have texts : (arguments.call traffic.memory).texts = [] := by
    unfold WorkCall.texts Arguments.call
    cases arguments.pParams <;> rfl
  apply audited.enter mallocOk _ (fun _ => texts)
  · rw [texts]
    exact audited.estate
  · rw [texts]
    exact iff_of_false (fun frees => plain (Option.some.inj frees.1)) fun differs => differs rfl

theorem rcCtCb {report : CtReport} (audited : Audited traffic lost) (mallocOk : Bool) :
    Audited (traffic.enter mallocOk (traffic.entry (.rcCtCb report mallocOk)))
      (traffic.losses (.rcCtCb report mallocOk) ++ lost) := by
  have positive (event : CtEvent) (params : Params) :
      (ctCall event (report.ctParam traffic.memory) params).paramLen ≠ 0 :=
    Int.natCast_ne_zero.mpr (Nat.ne_of_gt report.positive)
  simp only [Traffic.losses, Traffic.entry]
  cases event : report.event with
  | metadataRsp =>
      have text := audited.estate.malloc (.text ((report.ctParam traffic.memory).attrText ++ [0]))
      apply audited.enter mallocOk _ (fun bare => absurd bare (positive _ _)) text
      exact iff_of_true ⟨rfl, rfl⟩ (List.cons_ne_nil _ _)
  | connectionState | passthroughRsp | changeNotify | remoteFeatures | getRnCapabilitiesRsp =>
      apply audited.enter mallocOk _ (fun bare => absurd bare (positive _ _)) audited.estate
      exact iff_of_false (fun frees => by cases frees.2) fun differs => differs rfl
  | other code => exact audited

/-- Every step keeps the audit. -/
theorem step {label : TrafficLabel} (audited : Audited traffic lost) (plain : label.Plain)
    (taken : traffic.step label = some next) : Audited next (traffic.losses label ++ lost) := by
  unfold Traffic.step at taken
  rw [audited.sound] at taken
  cases label with
  | store address byte =>
      cases taken
      exact ⟨audited.sound, audited.estate⟩
  | dispatch arguments mallocOk =>
      cases taken
      exact audited.dispatch mallocOk plain
  | rcCtCb report mallocOk =>
      cases taken
      exact audited.rcCtCb mallocOk
  | send draft =>
      obtain ⟨msg, drafted, rfl⟩ := Option.map_eq_some_iff.mp taken
      simp only [Traffic.losses, drafted]
      exact audited.send drafted
  | receive =>
      obtain ⟨core, received, rfl⟩ := Option.map_eq_some_iff.mp taken
      unfold Core.receive at received
      split at received
      · cases received
      · rename_i idle
        obtain ⟨⟨msg, queue⟩, first, rfl⟩ := Option.map_eq_some_iff.mp received
        have estate := audited.estate
        rw [Core.messages, idle, Queue.receive_some first] at estate
        exact ⟨audited.sound, estate⟩
  | handle =>
      obtain ⟨core, handled, rfl⟩ := Option.map_eq_some_iff.mp taken
      obtain ⟨msg, handling, rfl⟩ := Option.map_eq_some_iff.mp handled
      have estate := audited.estate
      rw [Core.messages, handling] at estate
      obtain ⟨after, done, rest⟩ := estate.handle
      rw [done]
      exact ⟨audited.sound, rest⟩

theorem reaches {memory : Memory} {pair : Traffic × List Nat}
    (reached : (lossMachine memory).Reaches (fun _ label => label.Plain) (lossMachine memory).initial pair) :
    Audited pair.1 pair.2 :=
  reached.recorded_invariant Audited ⟨rfl, Estate.empty⟩ fun _ _ _ _ audited plain taken => audited.step plain taken

end Audited

/-- Every block is freed once, owned by one message or lost by a call that returned false. -/
theorem live_iff_owned_or_lost {memory : Memory} {traffic : Traffic} {lost : List Nat}
    (reached : (lossMachine memory).Reaches (fun _ label => label.Plain) (lossMachine memory).initial
      (traffic, lost)) :
    traffic.core.fault = none ∧
      (∀ address, traffic.core.heap.contents address ≠ none ↔
        address ∈ (traffic.core.messages ++ traffic.drafts).flatMap (Msg.owned traffic.core.heap) ++ lost) ∧
      ((traffic.core.messages ++ traffic.drafts).flatMap (Msg.owned traffic.core.heap) ++ lost).Nodup ∧
      ∀ address, address < traffic.core.heap.next → traffic.core.heap.contents address = none →
        traffic.core.heap.freed.count address = 1 := by
  obtain ⟨sound, estate⟩ := Audited.reaches reached
  exact ⟨sound, estate.live, estate.once, fun _ issued gone => traffic.core.heap.freed_once issued gone⟩

/-- A metadata response without memory loses its text and a later call loses nothing. -/
theorem live_iff_owned_or_lost_metadata : ∃ (traffic : Traffic) (lost : List Nat),
    lost = [0] ∧ traffic.core.messages ++ traffic.drafts = [] ∧ traffic.core.heap.next = 2 ∧
      traffic.core.heap.freed.count 1 = 1 := by
  have refused : (lossMachine fun _ => 7).Reaches (fun _ label => label.Plain) (Traffic.start fun _ => 7, []) _ :=
    .step .refl (.rcCtCb ⟨.metadataRsp, 0, 1, Nat.one_pos, 2, 2⟩ false) trivial rfl
  have called : (lossMachine fun _ => 7).Reaches (fun _ label => label.Plain) _ _ :=
    .step refused (.dispatch ⟨.other 3, .other 9, some 0, 2, none⟩ true) Callback.noConfusion rfl
  have sent : (lossMachine fun _ => 7).Reaches (fun _ label => label.Plain) _ _ :=
    .step called (.send 0) trivial rfl
  have received : (lossMachine fun _ => 7).Reaches (fun _ label => label.Plain) _ _ :=
    .step sent .receive trivial rfl
  have handled : (lossMachine fun _ => 7).Reaches (fun _ label => label.Plain) _ _ :=
    .step received .handle trivial rfl
  exact ⟨_, _, rfl, rfl, rfl, (live_iff_owned_or_lost handled).2.2.2 1 Nat.one_lt_two rfl⟩

end DesktopCube.Work
