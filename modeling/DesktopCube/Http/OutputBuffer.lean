import DesktopCube.Http.Accumulation
import Mathlib.Data.List.DropRight

namespace DesktopCube.Http
open CMemory

/-- An event with the answer of the heap to the allocation that it may need. -/
structure Call where
  event : HttpEvent
  hasRoom : Bool

/-- The chunk finds memory for a new buffer. -/
def Call.allocates (call : Call) : Bool := call.event.isData && call.hasRoom

/-- One call of the handler for a client without a configured buffer. -/
def handleUnconfigured (client : HttpClient) (statics : Statics) (call : Call) : Except Fault Statics :=
  (httpEventHandler client call.hasRoom call.event statics none).map fun result => result.2.1

def performUnconfigured (client : HttpClient) (calls : List Call) : Except Fault Statics :=
  calls.foldlM (handleUnconfigured client) Statics.start

/-- The calls since the last reset, from the first chunk that finds memory. -/
def buffered (calls : List Call) : List Call :=
  (calls.rtakeWhile fun call => !call.event.isReset).dropWhile fun call => !call.allocates

/-- The bytes of the chunks that reach the buffer. -/
def bufferedBytes (calls : List Call) : List UInt8 := body ((buffered calls).map Call.event)

/-- The first bytes of a response with zeros behind them. -/
def filled (contentLength : Nat) (bytes : List UInt8) : Block (contentLength + 1) :=
  Vector.ofFn fun index => (bytes.take contentLength).getD index 0

/-- The static variables tell the bytes of the segment. -/
def accumulated (contentLength : Nat) (calls : List Call) : Statics :=
  if (buffered calls).isEmpty then Statics.start
  else ⟨some ⟨contentLength + 1, filled contentLength (bufferedBytes calls)⟩,
    (min (bufferedBytes calls).length contentLength : Nat)⟩

theorem filled_getElem (contentLength : Nat) (bytes : List UInt8) (index : Nat)
    (inside : index < contentLength + 1) :
    (filled contentLength bytes)[index] = if index < contentLength then bytes.getD index 0 else 0 := by
  rw [filled, Vector.getElem_ofFn, List.getD_eq_getElem?_getD, List.getD_eq_getElem?_getD, List.getElem?_take]
  split <;> rfl

theorem filled_nil (contentLength : Nat) : filled contentLength [] = Block.zeros := by
  apply Vector.ext
  intro index inside
  rw [filled_getElem, Block.zeros_getElem]
  simp

/-- A chunk continues the bytes of its response up to the content length. -/
theorem filled_overlay (contentLength : Nat) (bytes data : List UInt8) :
    (filled contentLength bytes).overlay (min bytes.length contentLength) data
        (min data.length (contentLength - min bytes.length contentLength)) =
      filled contentLength (bytes ++ data) := by
  apply Vector.ext
  intro index inside
  rw [Block.overlay_getElem, filled_getElem, filled_getElem]
  by_cases final : index < contentLength
  · rw [if_pos final, if_pos final]
    by_cases old : index < bytes.length
    · rw [if_neg (by omega), List.getD_append _ _ _ _ old]
    · rw [List.getD_append_right _ _ _ _ (by omega), Nat.min_eq_left (by omega)]
      by_cases new : index - bytes.length < data.length
      · rw [if_pos (by omega)]
      · rw [if_neg (by omega), List.getD_eq_default _ _ (by omega), List.getD_eq_default _ _ (by omega)]
  · rw [if_neg final, if_neg final, if_neg (by omega)]

section Buffered

variable {calls : List Call} {call : Call}

theorem buffered_reset (reset : call.event.isReset = true) : buffered (calls ++ [call]) = [] := by
  rw [buffered, List.rtakeWhile_concat, if_neg (by simp [reset])]
  rfl

/-- A call that is no reset joins the buffer or opens it. -/
theorem buffered_append (joined : call.event.isReset = false) :
    buffered (calls ++ [call]) =
      if (buffered calls).isEmpty then (if call.allocates then [call] else []) else buffered calls ++ [call] := by
  rw [buffered, List.rtakeWhile_concat, if_pos (by simp [joined]), List.dropWhile_append]
  unfold buffered
  split
  · cases allocates : call.allocates <;> simp [allocates]
  · rfl

end Buffered

section Plain

variable {client : HttpClient} {contentLength : Nat} {calls : List Call} {call : Call}

theorem HttpClient.contentLen_bounds (client : HttpClient) :
    -0x80000000 ≤ client.contentLen ∧ client.contentLen < 0x80000000 :=
  ⟨Int32.le_toInt _, Int32.toInt_lt _⟩

/-- A chunk of a plain response is copied up to the content length. -/
theorem copyToOutputBuffer_ok (length : client.contentLen = contentLength) (hasRoom : Bool)
    (bytes data : List UInt8) :
    copyToOutputBuffer client hasRoom data
        ⟨some ⟨contentLength + 1, filled contentLength bytes⟩, (min bytes.length contentLength : Nat)⟩ =
      .ok (.ok, ⟨some ⟨contentLength + 1, filled contentLength (bytes ++ data)⟩,
        (min (bytes ++ data).length contentLength : Nat)⟩) := by
  have upper := client.contentLen_bounds.2
  have room : checkInt (client.contentLen - (min bytes.length contentLength : Nat)) =
      .ok (contentLength - min bytes.length contentLength : Nat) := by
    rw [checkInt_ok (by omega) (by omega)]
    congr 1
    omega
  have copyLen : (min data.length (contentLength - min bytes.length contentLength : Nat) : Int) =
      (min data.length (contentLength - min bytes.length contentLength) : Nat) := by omega
  have total : ((min bytes.length contentLength : Nat) : Int) +
      (min data.length (contentLength - min bytes.length contentLength) : Nat) =
      (min (bytes ++ data).length contentLength : Nat) := by
    rw [List.length_append]
    omega
  have copied : (if ((min data.length (contentLength - min bytes.length contentLength) : Nat) : Int) = 0 then
      .ok (filled contentLength bytes)
      else memcpy (filled contentLength bytes) (min bytes.length contentLength : Nat) data
        (min data.length (contentLength - min bytes.length contentLength) : Nat)) =
      .ok (filled contentLength (bytes ++ data)) := by
    rw [← filled_overlay]
    split
    · rename_i empty
      rw [Int.natCast_eq_zero.mp empty, Block.overlay_zero]
    · apply memcpy_ok
      · omega
      · omega
  simp only [copyToOutputBuffer, outputBufferFor, room, copyLen, copied, total, bind, Except.bind]
  rfl

/-- The first chunk asks the heap for a byte more than the content length. -/
theorem outputBufferFor_start (fits : client.contentLen + 1 < 0x80000000) (hasRoom : Bool) :
    outputBufferFor client hasRoom Statics.start =
      .ok ((calloc (client.contentLen + 1) hasRoom).map fun buffer => (buffer, 0)) := by
  have lower := client.contentLen_bounds.1
  have size : checkInt (client.contentLen + 1) = .ok (client.contentLen + 1) := checkInt_ok (by omega) fits
  simp only [outputBufferFor, Statics.start, size, bind, Except.bind]
  rfl

/-- A chunk that finds no buffer and gets none fails. -/
theorem copyToOutputBuffer_refused {hasRoom : Bool} (data : List UInt8) (fits : client.contentLen + 1 < 0x80000000)
    (refused : calloc (client.contentLen + 1) hasRoom = none) :
    copyToOutputBuffer client hasRoom data Statics.start = .ok (.fail, Statics.start) := by
  rw [copyToOutputBuffer, outputBufferFor_start fits, refused]
  rfl

/-- The first chunk opens a cleared buffer when the heap has room. -/
theorem copyToOutputBuffer_first (length : client.contentLen = contentLength) (fits : contentLength + 1 < 0x80000000)
    (data : List UInt8) :
    copyToOutputBuffer client true data Statics.start =
      .ok (.ok, ⟨some ⟨contentLength + 1, filled contentLength data⟩, (min data.length contentLength : Nat)⟩) := by
  have allocated : calloc (client.contentLen + 1) true = some ⟨contentLength + 1, Block.zeros⟩ := by
    rw [length]
    exact if_pos ⟨by omega, rfl⟩
  have opened := copyToOutputBuffer_ok length true [] data
  rw [filled_nil, List.nil_append, List.length_nil, Nat.zero_min] at opened
  rw [copyToOutputBuffer, outputBufferFor_start (by omega), allocated]
  exact opened

/-- The size of the buffer for the largest `int` exceeds the type. -/
theorem copyToOutputBuffer_overflow (largest : client.contentLen = 0x7FFFFFFF) (hasRoom : Bool)
    (data : List UInt8) :
    copyToOutputBuffer client hasRoom data Statics.start = .error .signedOverflow := by
  have overflows : checkInt (client.contentLen + 1) = .error .signedOverflow := if_neg (by omega)
  simp only [copyToOutputBuffer, outputBufferFor, Statics.start, overflows, bind, Except.bind]

theorem handleUnconfigured_onData (plain : client.isChunkedResponse = false) (statics : Statics)
    (data : List UInt8) (hasRoom : Bool) :
    handleUnconfigured client statics ⟨.onData data, hasRoom⟩ =
      (copyToOutputBuffer client hasRoom data statics).map Prod.snd := by
  simp only [handleUnconfigured, httpEventHandler, cleanUserData, bind, Except.bind, plain]
  cases copyToOutputBuffer client hasRoom data statics with
  | ok result => rfl
  | error fault => rfl

/-- The static variables follow each event of a plain response. -/
theorem handleUnconfigured_step (plain : client.isChunkedResponse = false)
    (length : client.contentLen = contentLength) (fits : contentLength + 1 < 0x80000000) (calls : List Call)
    (call : Call) :
    handleUnconfigured client (accumulated contentLength calls) call =
      .ok (accumulated contentLength (calls ++ [call])) := by
  obtain ⟨event, hasRoom⟩ := call
  have quiet (joined : event.isReset = false) (empty : event.isData = false) :
      accumulated contentLength (calls ++ [⟨event, hasRoom⟩]) = accumulated contentLength calls := by
    have chunk : body [event] = [] := body_eq_nil (by simpa using empty)
    unfold accumulated bufferedBytes
    rw [buffered_append joined]
    cases opened : (buffered calls).isEmpty with
    | true => simp [Call.allocates, empty]
    | false => simp [body_append, chunk]
  cases event with
  | onFinish | disconnected =>
      rw [accumulated, accumulated, buffered_reset rfl]
      rfl
  | error | onConnected | headerSent | onHeader | redirect => exact congrArg Except.ok (quiet rfl rfl).symm
  | onData data =>
      have bytes : body [.onData data] = data := List.flatMap_singleton _ _
      rw [handleUnconfigured_onData plain]
      unfold accumulated bufferedBytes
      rw [buffered_append rfl]
      cases opened : (buffered calls).isEmpty with
      | true =>
          cases hasRoom with
          | true =>
              show Except.map Prod.snd (copyToOutputBuffer client true data Statics.start) =
                .ok ⟨some ⟨_, filled _ (body [.onData data])⟩, (min (body [.onData data]).length _ : Nat)⟩
              rw [bytes, copyToOutputBuffer_first length fits]
              rfl
          | false =>
              have refused : calloc (client.contentLen + 1) false = none := by simp [calloc]
              show Except.map Prod.snd (copyToOutputBuffer client false data Statics.start) = .ok Statics.start
              rw [copyToOutputBuffer_refused data (by omega) refused]
              rfl
      | false =>
          have more : (buffered calls ++ [(⟨.onData data, hasRoom⟩ : Call)]).isEmpty = false := by simp
          simp only [Bool.false_eq_true, if_false, more, List.map_append, List.map_cons, List.map_nil, body_append,
            bytes, copyToOutputBuffer_ok length]
          rfl

/-- A negative length asks for no byte or for too many of them and each chunk fails. -/
theorem handleUnconfigured_negative (plain : client.isChunkedResponse = false)
    (negative : client.contentLen < 0) (call : Call) :
    handleUnconfigured client Statics.start call = .ok Statics.start := by
  obtain ⟨event, hasRoom⟩ := call
  cases event with
  | error | onConnected | headerSent | onHeader | redirect | onFinish | disconnected => rfl
  | onData data =>
      have refused : calloc (client.contentLen + 1) hasRoom = none := if_neg fun room => by omega
      rw [handleUnconfigured_onData plain, copyToOutputBuffer_refused data (by omega) refused]
      rfl

/-- The largest length overflows at a chunk and nowhere else. -/
theorem handleUnconfigured_largest (plain : client.isChunkedResponse = false)
    (largest : client.contentLen = 0x7FFFFFFF) (call : Call) :
    handleUnconfigured client Statics.start call =
      if call.event.isData then .error .signedOverflow else .ok Statics.start := by
  obtain ⟨event, hasRoom⟩ := call
  cases event with
  | error | onConnected | headerSent | onHeader | redirect | onFinish | disconnected => rfl
  | onData data =>
      rw [handleUnconfigured_onData plain, copyToOutputBuffer_overflow largest]
      rfl

/-- The last call follows the others. -/
theorem performUnconfigured_append (calls : List Call) (call : Call) :
    performUnconfigured client (calls ++ [call]) =
      (performUnconfigured client calls).bind fun statics => handleUnconfigured client statics call := by
  rw [performUnconfigured, List.foldlM_append, ← performUnconfigured]
  show ((performUnconfigured client calls).bind fun statics => (handleUnconfigured client statics call).bind .ok) = _
  congr 1
  funext statics
  cases handleUnconfigured client statics call <;> rfl

/-- The calls of a plain response with a content length fold into one account. -/
theorem performUnconfigured_accumulated (plain : client.isChunkedResponse = false)
    (length : client.contentLen = contentLength) (fits : contentLength + 1 < 0x80000000) (calls : List Call) :
    performUnconfigured client calls = .ok (accumulated contentLength calls) := by
  induction calls using List.reverseRecOn with
  | nil => rfl
  | append_singleton calls call ih =>
      rw [performUnconfigured_append, ih]
      exact handleUnconfigured_step plain length fits calls call

theorem performUnconfigured_negative (plain : client.isChunkedResponse = false)
    (negative : client.contentLen < 0) (calls : List Call) :
    performUnconfigured client calls = .ok Statics.start := by
  induction calls using List.reverseRecOn with
  | nil => rfl
  | append_singleton calls call ih =>
      rw [performUnconfigured_append, ih]
      exact handleUnconfigured_negative plain negative call

theorem performUnconfigured_largest (plain : client.isChunkedResponse = false)
    (largest : client.contentLen = 0x7FFFFFFF) (calls : List Call) :
    performUnconfigured client calls =
      if calls.any fun call => call.event.isData then .error .signedOverflow else .ok Statics.start := by
  induction calls using List.reverseRecOn with
  | nil => rfl
  | append_singleton calls call ih =>
      rw [performUnconfigured_append, ih, List.any_append]
      cases found : calls.any fun call => call.event.isData with
      | true => rfl
      | false =>
          show handleUnconfigured client Statics.start call = _
          rw [handleUnconfigured_largest plain largest, List.any_cons, List.any_nil, Bool.or_false, Bool.false_or]

end Plain

/-- The shared buffer is exact up to the content length and only the size for the largest one overflows. -/
theorem outputBuffer_exact {client : HttpClient} (plain : client.isChunkedResponse = false) (calls : List Call) :
    (∀ contentLength : Nat, client.contentLen = contentLength → contentLength + 1 < 0x80000000 →
      performUnconfigured client calls = .ok (accumulated contentLength calls)) ∧
      (client.contentLen < 0 → performUnconfigured client calls = .ok Statics.start) ∧
      ((∃ statics, performUnconfigured client calls = .ok statics) ↔
        ¬ (client.contentLen = 0x7FFFFFFF ∧ ∃ call ∈ calls, call.event.isData = true)) := by
  refine ⟨fun contentLength length fits => performUnconfigured_accumulated plain length fits calls,
    fun negative => performUnconfigured_negative plain negative calls, ?_⟩
  rw [← List.any_eq_true]
  by_cases largest : client.contentLen = 0x7FFFFFFF
  · rw [performUnconfigured_largest plain largest]
    split
    · rename_i found
      exact iff_of_false (fun ⟨_, returned⟩ => by cases returned) fun safe => safe ⟨largest, found⟩
    · rename_i quiet
      exact iff_of_true ⟨_, rfl⟩ fun faulted => quiet faulted.2
  · have upper := client.contentLen_bounds.2
    refine iff_of_true ?_ fun faulted => largest faulted.1
    by_cases negative : client.contentLen < 0
    · exact ⟨_, performUnconfigured_negative plain negative calls⟩
    · obtain ⟨contentLength, length⟩ := Int.eq_ofNat_of_zero_le (Int.not_lt.mp negative)
      exact ⟨_, performUnconfigured_accumulated plain length (by omega) calls⟩

/-- The low 32 bits of the length are 3, the heap refuses the first chunk and the third one is cut. -/
theorem outputBuffer_exact_refused : ∃ block, performUnconfigured ⟨false, 0x100000003⟩
    [⟨.onData [1, 2], false⟩, ⟨.onData [3, 4], true⟩, ⟨.onData [5, 6], false⟩] =
      .ok ⟨some ⟨4, block⟩, 3⟩ ∧ block.toList = [3, 4, 5, 0] := by
  have copied := (@outputBuffer_exact ⟨false, 0x100000003⟩ rfl
    [⟨.onData [1, 2], false⟩, ⟨.onData [3, 4], true⟩, ⟨.onData [5, 6], false⟩]).1 3 (by decide) (by decide)
  exact ⟨filled 3 [3, 4, 5, 6], copied, by decide⟩

end DesktopCube.Http
