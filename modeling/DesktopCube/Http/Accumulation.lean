import DesktopCube.Http.EventHandler
import Mathlib.Data.List.GetD
import Mathlib.Data.List.Induction

namespace DesktopCube.Http
open CMemory

/-- The two events at which the handler forgets its offset. -/
def HttpEvent.isReset : HttpEvent → Bool
  | .onFinish | .disconnected => true
  | _ => false

def HttpEvent.isData : HttpEvent → Bool
  | .onData _ => true
  | _ => false

/-- The bytes that an event brings. -/
def HttpEvent.chunk : HttpEvent → List UInt8
  | .onData data => data
  | _ => []

/-- A request with a plain response delivers its events to the handler. -/
structure HttpRequest where
  client : HttpClient
  plain : client.isChunkedResponse = false
  hasRoom : Bool
  events : List HttpEvent

/-- One call of the handler for the buffer of the request. -/
def HttpRequest.handle (request : HttpRequest) (state : Statics × UserData) (event : HttpEvent) :
    Except Fault (Statics × UserData) :=
  (httpEventHandler request.client request.hasRoom event state.1 (some state.2)).map
    fun result => (result.2.1, result.2.2.getD state.2)

/-- The calls for all events of a request with the given buffer. -/
def HttpRequest.perform (request : HttpRequest) (statics : Statics) (block : UserData) :
    Except Fault (Statics × UserData) :=
  request.events.foldlM request.handle (statics, block)

/-- Each request has a cleared buffer of its own and leaves its static variables to the next one. -/
def performAll (requests : List HttpRequest) : Except Fault Statics :=
  requests.foldlM (fun statics request => (request.perform statics Block.zeros).map Prod.fst) Statics.start

/-- No data follows the last reset of a closed request. -/
def HttpRequest.Closed (request : HttpRequest) : Prop :=
  ∃ before reset after, request.events = before ++ reset :: after ∧ reset.isReset ∧
    ∀ event ∈ after, event.isData = false

/-- The resets delimit the segments. -/
def segments (events : List HttpEvent) : List (List HttpEvent) := events.splitOnP HttpEvent.isReset

/-- The concatenated chunks of a segment. -/
def body (segment : List HttpEvent) : List UInt8 := segment.flatMap HttpEvent.chunk

/-- The events since the last reset. -/
def sinceReset (events : List HttpEvent) : List HttpEvent := (segments events).getLastD []

/-- The latest segment that contains data, even when it brings no bytes. -/
def latestData (events : List HttpEvent) : List HttpEvent :=
  ((segments events).filter fun segment => segment.any HttpEvent.isData).getLastD []

/-- The first 4096 bytes with zeros behind them. -/
def padded (bytes : List UInt8) : UserData :=
  Vector.ofFn fun index => (bytes.take maxHttpOutputBuffer).getD index 0

theorem padded_getElem (bytes : List UInt8) (index : Nat) (inside : index < maxHttpOutputBuffer + 1) :
    (padded bytes)[index] = if index < maxHttpOutputBuffer then bytes.getD index 0 else 0 := by
  rw [padded, Vector.getElem_ofFn, List.getD_eq_getElem?_getD, List.getD_eq_getElem?_getD, List.getElem?_take]
  split <;> rfl

theorem padded_nil : padded [] = Block.zeros := by
  apply Vector.ext
  intro index inside
  rw [padded_getElem, Block.zeros_getElem]
  simp

/-- A chunk continues the bytes of its segment. -/
theorem stored_padded (bytes data : List UInt8) (block : UserData)
    (holds : bytes ≠ [] → block = padded bytes)
    (last : ∀ index, ∀ inside : index < maxHttpOutputBuffer + 1, maxHttpOutputBuffer ≤ index → block[index] = 0) :
    stored (min bytes.length maxHttpOutputBuffer) data block = padded (bytes ++ data) := by
  apply Vector.ext
  intro index inside
  rw [stored_getElem, padded_getElem]
  by_cases final : index < maxHttpOutputBuffer
  · rw [if_pos final]
    -- the chunk lands behind the bytes before it
    by_cases old : index < bytes.length
    · have some : bytes ≠ [] := List.ne_nil_of_length_pos (by omega)
      rw [List.getD_append _ _ _ _ old, if_neg (by omega), if_neg (by omega)]
      simp only [holds some]
      rw [padded_getElem, if_pos final]
    · rw [List.getD_append_right _ _ _ _ (by omega), Nat.min_eq_left (by omega)]
      by_cases new : index - bytes.length < data.length
      · rw [if_pos (by omega)]
      · rw [if_neg (by omega), List.getD_eq_default _ _ (by omega)]
        by_cases fresh : bytes.length = 0
        · rw [if_pos ⟨fresh, final⟩]
        · have some : bytes ≠ [] := List.ne_nil_of_length_pos (by omega)
          rw [if_neg (by omega)]
          simp only [holds some]
          rw [padded_getElem, if_pos final, List.getD_eq_default _ _ (by omega)]
  · rw [if_neg final, if_neg (by omega), if_neg (by omega)]
    exact last index inside (by omega)

section Segments

variable {events : List HttpEvent}

/-- An event that is no reset joins the last segment. -/
theorem segments_ends (events : List HttpEvent) : ∃ closed last, ∀ tail,
    (∀ event ∈ tail, event.isReset = false) → segments (events ++ tail) = closed ++ [last ++ tail] := by
  induction events using List.reverseRecOn with
  | nil => exact ⟨[], [], fun tail joined => List.splitOnP_eq_singleton joined⟩
  | append_singleton events event ih =>
      cases reset : event.isReset with
      | true =>
          refine ⟨segments events, [], fun tail joined => ?_⟩
          rw [List.append_assoc, List.singleton_append, segments, List.splitOnP_append_cons _ _ reset,
            List.splitOnP_eq_singleton joined]
          rfl
      | false =>
          obtain ⟨closed, last, extends_⟩ := ih
          refine ⟨closed, last ++ [event], fun tail joined => ?_⟩
          rw [List.append_assoc, List.append_assoc]
          exact extends_ ([event] ++ tail) (by simpa [reset] using joined)

theorem segments_reset {event : HttpEvent} (reset : event.isReset) :
    segments (events ++ [event]) = segments events ++ [[]] := by
  rw [segments, List.splitOnP_append_cons _ _ reset]
  rfl

theorem sinceReset_reset {event : HttpEvent} (reset : event.isReset) : sinceReset (events ++ [event]) = [] := by
  rw [sinceReset, segments_reset reset, List.getLastD_concat]

theorem latestData_reset {event : HttpEvent} (reset : event.isReset) :
    latestData (events ++ [event]) = latestData events := by
  rw [latestData, segments_reset reset, List.filter_append]
  simp [latestData]

theorem sinceReset_append {event : HttpEvent} (joined : event.isReset = false) :
    sinceReset (events ++ [event]) = sinceReset events ++ [event] := by
  obtain ⟨closed, last, ends⟩ := segments_ends events
  have before := ends [] nofun
  rw [List.append_nil, List.append_nil] at before
  rw [sinceReset, sinceReset, ends [event] (by simpa using joined), before, List.getLastD_concat,
    List.getLastD_concat]

theorem body_append (first second : List HttpEvent) : body (first ++ second) = body first ++ body second :=
  List.flatMap_append

/-- A segment without data has no bytes. -/
theorem body_eq_nil {segment : List HttpEvent} (empty : segment.any HttpEvent.isData = false) :
    body segment = [] := by
  rw [body, List.flatMap_eq_nil_iff]
  intro event member
  have other := List.any_eq_false.mp empty event member
  cases event with
  | onData data => exact absurd rfl other
  | error | onConnected | headerSent | onHeader | onFinish | disconnected | redirect => rfl

/-- A segment with bytes contains data. -/
theorem any_isData_of_body {segment : List HttpEvent} (bytes : body segment ≠ []) :
    segment.any HttpEvent.isData := by
  by_contra empty
  exact bytes (body_eq_nil (Bool.eq_false_iff.mpr empty))

/-- The last segment is the latest one with data as soon as it has some. -/
theorem latestData_eq_sinceReset (data : (sinceReset events).any HttpEvent.isData) :
    latestData events = sinceReset events := by
  obtain ⟨closed, last, ends⟩ := segments_ends events
  have before := ends [] nofun
  rw [List.append_nil, List.append_nil] at before
  rw [sinceReset, before, List.getLastD_concat] at data
  rw [latestData, sinceReset, before, List.filter_append, List.filter_singleton, data, List.getLastD_concat]
  exact List.getLastD_concat

theorem latestData_append {event : HttpEvent} (joined : event.isReset = false)
    (empty : (sinceReset (events ++ [event])).any HttpEvent.isData = false) :
    latestData (events ++ [event]) = latestData events := by
  obtain ⟨closed, last, ends⟩ := segments_ends events
  have before := ends [] nofun
  have after := ends [event] (by simpa using joined)
  rw [List.append_nil, List.append_nil] at before
  rw [sinceReset, after, List.getLastD_concat] at empty
  have none : last.any HttpEvent.isData = false := by
    rw [List.any_append, Bool.or_eq_false_iff] at empty
    exact empty.1
  rw [latestData, latestData, before, after]
  simp [empty, none]

/-- An event without data that is no reset changes no bytes. -/
theorem bodies_quiet {event : HttpEvent} (joined : event.isReset = false) (empty : event.isData = false) :
    body (sinceReset (events ++ [event])) = body (sinceReset events) ∧
      body (latestData (events ++ [event])) = body (latestData events) := by
  have chunk : body [event] = [] := body_eq_nil (by simpa using empty)
  have same : body (sinceReset (events ++ [event])) = body (sinceReset events) := by
    rw [sinceReset_append joined, body_append, chunk, List.append_nil]
  refine ⟨same, ?_⟩
  cases data : (sinceReset events).any HttpEvent.isData with
  | true =>
      have more : (sinceReset (events ++ [event])).any HttpEvent.isData := by
        rw [sinceReset_append joined, List.any_append, data, Bool.true_or]
      rw [latestData_eq_sinceReset more, latestData_eq_sinceReset data, same]
  | false =>
      rw [latestData_append joined]
      rw [sinceReset_append joined, List.any_append, data]
      simpa using empty

/-- Events after a history without open bytes continue as at the start. -/
theorem body_sinceReset_append (history events : List HttpEvent) (closed : body (sinceReset history) = []) :
    body (sinceReset (history ++ events)) = body (sinceReset events) := by
  induction events using List.reverseRecOn with
  | nil =>
      rw [List.append_nil, closed]
      rfl
  | append_singleton events event ih =>
      rw [← List.append_assoc]
      cases reset : event.isReset with
      | true => rw [sinceReset_reset reset, sinceReset_reset reset]
      | false => rw [sinceReset_append reset, sinceReset_append reset, body_append, body_append, ih]

theorem mem_of_mem_sinceReset {event : HttpEvent} (member : event ∈ sinceReset events) : event ∈ events := by
  induction events using List.reverseRecOn with
  | nil => exact member
  | append_singleton events last ih =>
      cases reset : last.isReset with
      | true =>
          rw [sinceReset_reset reset] at member
          exact absurd member List.not_mem_nil
      | false =>
          rw [sinceReset_append reset] at member
          rcases List.mem_append.mp member with old | new
          · exact List.mem_append_left _ (ih old)
          · exact List.mem_append_right _ new

end Segments

/-- A closed request leaves no open bytes. -/
theorem HttpRequest.Closed.body_sinceReset {request : HttpRequest} (closed : request.Closed) :
    body (sinceReset request.events) = [] := by
  obtain ⟨before, reset, after, events, isReset, quiet⟩ := closed
  rw [events, ← List.singleton_append, ← List.append_assoc, body_sinceReset_append]
  · apply body_eq_nil
    rw [List.any_eq_false]
    intro event member
    rw [quiet event (mem_of_mem_sinceReset member)]
    exact Bool.false_ne_true
  · rw [sinceReset_reset isReset]
    rfl

/-- The state after the events of a request that began at offset zero. -/
structure Accumulates (events : List HttpEvent) (state : Statics × UserData) : Prop where
  outputLen : state.1.outputLen = (min (body (sinceReset events)).length maxHttpOutputBuffer : Nat)
  userData : state.2 = padded (body (latestData events))

namespace Accumulates

variable {events : List HttpEvent} {state : Statics × UserData}

theorem start {statics : Statics} (fresh : statics.outputLen = 0) : Accumulates [] (statics, Block.zeros) :=
  ⟨fresh, padded_nil.symm⟩

/-- The last byte of the buffer is the terminating zero. -/
theorem last_zero (accumulates : Accumulates events state) (index : Nat)
    (inside : index < maxHttpOutputBuffer + 1) (last : maxHttpOutputBuffer ≤ index) : state.2[index] = 0 := by
  simp only [accumulates.userData]
  rw [padded_getElem, if_neg (by omega)]

/-- Every event of a plain response keeps the account of the bytes. -/
theorem step (accumulates : Accumulates events state) (request : HttpRequest) (event : HttpEvent) :
    ∃ next, request.handle state event = .ok next ∧ Accumulates (events ++ [event]) next := by
  have zero := accumulates.last_zero
  obtain ⟨⟨buffer, _⟩, block⟩ := state
  obtain ⟨rfl, userData⟩ := accumulates
  dsimp only at userData zero
  have quiet (other : event.isReset = false) (empty : event.isData = false) :
      body (sinceReset (events ++ [event])) = body (sinceReset events) ∧
        body (latestData (events ++ [event])) = body (latestData events) :=
    bodies_quiet other empty
  cases event with
  | onData data =>
      have joined : sinceReset (events ++ [.onData data]) = sinceReset events ++ [.onData data] :=
        sinceReset_append rfl
      have latest : latestData (events ++ [.onData data]) = sinceReset events ++ [.onData data] := by
        rw [latestData_eq_sinceReset, joined]
        rw [joined]
        simp [HttpEvent.isData]
      have bytes : body (sinceReset events ++ [.onData data]) = body (sinceReset events) ++ data := by
        rw [body_append]
        exact congrArg _ (List.flatMap_singleton _ _)
      refine ⟨_, by
        rw [HttpRequest.handle, httpEventHandler_onData _ _ _ _ _ _ request.plain (Nat.min_le_right _ _)]
        rfl, ?_, ?_⟩
      · rw [joined, bytes, List.length_append]
        dsimp only
        omega
      · rw [latest, bytes]
        apply stored_padded _ _ _ _ zero
        intro some
        rw [userData, latestData_eq_sinceReset (any_isData_of_body some)]
  | onFinish | disconnected =>
      refine ⟨(⟨none, 0⟩, block), rfl, ?_, ?_⟩
      · rw [sinceReset_reset rfl]
        rfl
      · rw [latestData_reset rfl]
        exact userData
  | error | onConnected | headerSent | onHeader | redirect =>
      obtain ⟨same, latest⟩ := quiet rfl rfl
      refine ⟨(⟨buffer, _⟩, block), rfl, ?_, ?_⟩
      · rw [same]
      · rw [latest]
        exact userData

/-- The events of a request fold into one account. -/
theorem run (accumulates : Accumulates [] state) (request : HttpRequest) (events : List HttpEvent) :
    ∃ next, events.foldlM request.handle state = .ok next ∧ Accumulates events next := by
  induction events using List.reverseRecOn with
  | nil => exact ⟨state, rfl, accumulates⟩
  | append_singleton events event ih =>
      obtain ⟨middle, delivered, account⟩ := ih
      obtain ⟨next, handled, after⟩ := account.step request event
      refine ⟨next, ?_, after⟩
      rw [List.foldlM_append, delivered]
      show (request.handle middle event).bind pure = .ok next
      rw [handled]
      rfl

end Accumulates

/-- Closed requests leave the offset at zero and their history without open bytes. -/
theorem performAll_ok (earlier : List HttpRequest) (closed : ∀ request ∈ earlier, request.Closed) :
    ∃ statics, performAll earlier = .ok statics ∧ statics.outputLen = 0 ∧
      body (sinceReset (earlier.flatMap HttpRequest.events)) = [] := by
  induction earlier using List.reverseRecOn with
  | nil => exact ⟨Statics.start, rfl, rfl, rfl⟩
  | append_singleton earlier request ih =>
      obtain ⟨statics, performed, fresh, history⟩ :=
        ih fun other member => closed other (List.mem_append_left _ member)
      obtain ⟨next, delivered, account⟩ := (Accumulates.start fresh).run request request.events
      have quiet := (closed request (by simp)).body_sinceReset
      refine ⟨next.1, ?_, ?_, ?_⟩
      · rw [performAll] at performed
        rw [performAll, List.foldlM_append, performed]
        show ((request.perform statics Block.zeros).map Prod.fst).bind pure = .ok next.1
        rw [HttpRequest.perform, delivered]
        rfl
      · rw [account.outputLen, quiet]
        rfl
      · rw [List.flatMap_append, List.flatMap_singleton, body_sinceReset_append _ _ history]
        exact quiet

/-- Events that start inside the buffer never write behind the first 4096 bytes. -/
theorem HttpRequest.foldlM_frame (request : HttpRequest) (events : List HttpEvent)
    (buffer : Option Allocation) (outputLen : Nat) (block : UserData) (bounded : outputLen ≤ maxHttpOutputBuffer) :
    ∃ after, events.foldlM request.handle (⟨buffer, outputLen⟩, block) = .ok after ∧
      ∀ index, ∀ inside : index < maxHttpOutputBuffer + 1, maxHttpOutputBuffer ≤ index →
        after.2[index] = block[index] := by
  induction events generalizing buffer outputLen block with
  | nil => exact ⟨_, rfl, fun _ _ _ => rfl⟩
  | cons event events ih =>
      obtain ⟨next, offset, written, handled, bounded, kept⟩ :=
        httpEventHandler_bounded request.client request.hasRoom event buffer outputLen block bounded
      obtain ⟨after, finished, same⟩ := ih next offset written bounded
      refine ⟨after, ?_, fun index inside last => ?_⟩
      · rw [List.foldlM_cons, HttpRequest.handle, handled]
        exact finished
      · rw [same index inside last]
        obtain rfl : index = maxHttpOutputBuffer := by omega
        exact kept

/-- The static offset and the buffer of a request are exact after each of its events. -/
theorem accumulation_exact (earlier : List HttpRequest) (current : HttpRequest)
    (closed : ∀ request ∈ earlier, request.Closed) :
    ∃ before after block, performAll earlier = .ok before ∧
      current.perform before Block.zeros = .ok (after, block) ∧
      after.outputLen = (min (body (sinceReset
        (earlier.flatMap HttpRequest.events ++ current.events))).length maxHttpOutputBuffer : Nat) ∧
      block = padded (body (latestData current.events)) ∧
      ∀ index, ∀ inside : index < maxHttpOutputBuffer + 1, maxHttpOutputBuffer ≤ index → block[index] = 0 ∧
        ∀ other, ∃ statics written, current.perform before other = .ok (statics, written) ∧
          written[index] = other[index] := by
  obtain ⟨before, performed, fresh, history⟩ := performAll_ok earlier closed
  obtain ⟨⟨after, block⟩, delivered, account⟩ := (Accumulates.start fresh).run current current.events
  refine ⟨before, after, block, performed, delivered, ?_, account.userData,
    fun index inside last => ⟨account.last_zero index inside last, fun other => ?_⟩⟩
  · rw [body_sinceReset_append _ _ history]
    exact account.outputLen
  · obtain ⟨buffer, _⟩ := before
    obtain rfl := fresh
    obtain ⟨⟨statics, written⟩, finished, kept⟩ :=
      current.foldlM_frame current.events buffer 0 other (Nat.zero_le _)
    exact ⟨statics, written, finished, kept index inside last⟩

/-- A request that is closed by its last two events. -/
def closedRequest : HttpRequest where
  client := ⟨false, 2⟩
  plain := rfl
  hasRoom := true
  events := [.onConnected, .onData [123, 125], .onFinish, .disconnected]

/-- A request that is disconnected in the middle of its body and then gets a fresh response. -/
def resumedRequest : HttpRequest where
  client := ⟨false, 2⟩
  plain := rfl
  hasRoom := true
  events := [.onConnected, .onData [97, 98], .disconnected, .onConnected, .onData [], .onData [99]]

/-- The fresh response alone is in the buffer. -/
theorem accumulation_exact_resumed : ∃ before after block, performAll [closedRequest] = .ok before ∧
    resumedRequest.perform before Block.zeros = .ok (after, block) ∧ after.outputLen = 1 ∧ block = padded [99] := by
  have closed : closedRequest.Closed :=
    ⟨[.onConnected, .onData [123, 125], .onFinish], .disconnected, [], rfl, rfl, nofun⟩
  obtain ⟨before, after, block, performed, delivered, outputLen, userData, _⟩ :=
    accumulation_exact [closedRequest] resumedRequest (by simpa using closed)
  exact ⟨before, after, block, performed, delivered, outputLen.trans (by decide),
    userData.trans (congrArg padded (by decide))⟩

end DesktopCube.Http
