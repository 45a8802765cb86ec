import DesktopCube.Library.Block

namespace DesktopCube.Http
open CMemory

/-- The handler treats a response of at most this many bytes as whole. -/
def maxHttpOutputBuffer : Nat := 4096

/-- The last byte of `local_response_buffer` stays zero. -/
abbrev UserData := Block (maxHttpOutputBuffer + 1)

inductive EspErr where
  | ok
  | fail
  deriving DecidableEq, Repr

/-- The events of the HTTP client with the data that the handler reads. -/
inductive HttpEvent where
  | error
  | onConnected
  | headerSent
  | onHeader
  | onData (data : List UInt8)
  | onFinish
  | disconnected
  | redirect
  deriving DecidableEq, Repr

/-- The answers of the client to the two questions of the handler. -/
structure HttpClient where
  isChunkedResponse : Bool
  contentLength : Int64

/-- The variable `content_len` of type `int` keeps the low 32 bits of the length. -/
def HttpClient.contentLen (client : HttpClient) : Int := client.contentLength.toInt32.toInt

/-- A block that `calloc` returned. -/
structure Allocation where
  size : Nat
  block : Block size

/-- The static variables of the handler are shared by all clients. -/
structure Statics where
  outputBuffer : Option Allocation
  outputLen : Int

def Statics.start : Statics := ⟨none, 0⟩

/-- The heap gives no block for size 0, for the huge unsigned value of a negative size or when it has no room. -/
def calloc (size : Int) (hasRoom : Bool) : Option Allocation :=
  if 0 < size ∧ hasRoom then some ⟨size.toNat, Block.zeros⟩ else none

/-- The data of the first chunk finds a cleared buffer. -/
def cleanUserData (outputLen : Int) (userData : Option UserData) : Except Fault (Option UserData) :=
  match userData with
  | some block =>
      if outputLen = 0 then (memset block 0 maxHttpOutputBuffer).map some else .ok (some block)
  | none => .ok none

/-- The copy stops at the last byte but one of the configured buffer. -/
def copyToUserData (data : List UInt8) (statics : Statics) (block : UserData) :
    Except Fault (Statics × UserData) :=
  let copyLen : Int := min data.length (maxHttpOutputBuffer - statics.outputLen)
  let copied := if copyLen = 0 then .ok block else memcpy block statics.outputLen data copyLen
  copied.map fun block => ({ statics with outputLen := statics.outputLen + copyLen }, block)

/-- A client without a configured buffer shares one allocation with the others. -/
def outputBufferFor (client : HttpClient) (hasRoom : Bool) (statics : Statics) :
    Except Fault (Option (Allocation × Int)) :=
  match statics.outputBuffer with
  | some buffer => .ok (some (buffer, statics.outputLen))
  | none => do
      let size ← checkInt (client.contentLen + 1)
      return (calloc size hasRoom).map fun buffer => (buffer, 0)

/-- The copy stops at the content length. -/
def copyToOutputBuffer (client : HttpClient) (hasRoom : Bool) (data : List UInt8)
    (statics : Statics) : Except Fault (EspErr × Statics) := do
  match ← outputBufferFor client hasRoom statics with
  | none => return (.fail, ⟨none, 0⟩)
  | some (buffer, outputLen) =>
      let room ← checkInt (client.contentLen - outputLen)
      let copyLen : Int := min data.length room
      let copied := if copyLen = 0 then .ok buffer.block else memcpy buffer.block outputLen data copyLen
      copied.map fun block => (.ok, ⟨some ⟨buffer.size, block⟩, outputLen + copyLen⟩)

/-- This function returns the new static variables and the new configured buffer. -/
def httpEventHandler (client : HttpClient) (hasRoom : Bool) (event : HttpEvent) (statics : Statics)
    (userData : Option UserData) : Except Fault (EspErr × Statics × Option UserData) :=
  match event with
  | .onData data => do
      match ← cleanUserData statics.outputLen userData with
      | some block =>
          if client.isChunkedResponse then return (.ok, statics, some block)
          let (statics, block) ← copyToUserData data statics block
          return (.ok, statics, some block)
      | none =>
          if client.isChunkedResponse then return (.ok, statics, none)
          let (err, statics) ← copyToOutputBuffer client hasRoom data statics
          return (err, statics, none)
  | .onFinish | .disconnected => .ok (.ok, ⟨none, 0⟩, userData)
  | .error | .onConnected | .headerSent | .onHeader | .redirect => .ok (.ok, statics, userData)

/-- The buffer after a chunk arrived at the given offset. -/
def stored (outputLen : Nat) (data : List UInt8) (block : UserData) : UserData :=
  (if outputLen = 0 then block.fill 0 maxHttpOutputBuffer else block).overlay outputLen data
    (min data.length (maxHttpOutputBuffer - outputLen))

/-- A byte of the buffer comes from the chunk or else from the cleared buffer. -/
theorem stored_getElem (outputLen : Nat) (data : List UInt8) (block : UserData) (index : Nat)
    (inside : index < maxHttpOutputBuffer + 1) :
    (stored outputLen data block)[index] =
      if outputLen ≤ index ∧ index < outputLen + min data.length (maxHttpOutputBuffer - outputLen) then
        data.getD (index - outputLen) 0
      else if outputLen = 0 ∧ index < maxHttpOutputBuffer then 0
      else block[index] := by
  rw [stored, Block.overlay_getElem]
  by_cases fresh : outputLen = 0
  · simp only [fresh, if_true, true_and, Block.fill_getElem]
  · simp only [fresh, if_false, false_and]

theorem cleanUserData_some (outputLen : Nat) (block : UserData) :
    cleanUserData outputLen (some block) =
      .ok (some (if outputLen = 0 then block.fill 0 maxHttpOutputBuffer else block)) := by
  rw [cleanUserData]
  by_cases fresh : outputLen = 0
  · rw [if_pos (by omega), if_pos fresh, memset_ok _ _ _ (Nat.le_succ _)]
    rfl
  · rw [if_neg (by omega), if_neg fresh]

theorem copyToUserData_ok (data : List UInt8) (buffer : Option Allocation) (outputLen : Nat)
    (block : UserData) (bounded : outputLen ≤ maxHttpOutputBuffer) :
    copyToUserData data ⟨buffer, outputLen⟩ block =
      .ok (⟨buffer, (min (outputLen + data.length) maxHttpOutputBuffer : Nat)⟩,
        block.overlay outputLen data (min data.length (maxHttpOutputBuffer - outputLen))) := by
  have copyLen : (min data.length (maxHttpOutputBuffer - outputLen) : Int) =
      (min data.length (maxHttpOutputBuffer - outputLen) : Nat) := by omega
  have total : (outputLen : Int) + (min data.length (maxHttpOutputBuffer - outputLen) : Nat) =
      (min (outputLen + data.length) maxHttpOutputBuffer : Nat) := by omega
  have copied : (if ((min data.length (maxHttpOutputBuffer - outputLen) : Nat) : Int) = 0 then .ok block
      else memcpy block outputLen data (min data.length (maxHttpOutputBuffer - outputLen) : Nat)) =
      .ok (block.overlay outputLen data (min data.length (maxHttpOutputBuffer - outputLen))) := by
    by_cases empty : min data.length (maxHttpOutputBuffer - outputLen) = 0
    · rw [if_pos (by omega), empty, Block.overlay_zero]
    · rw [if_neg (by omega)]
      apply memcpy_ok
      · omega
      · omega
  simp only [copyToUserData, copyLen, copied, total]
  rfl

/-- A chunk of a plain response lands at the shared offset. -/
theorem httpEventHandler_onData (client : HttpClient) (hasRoom : Bool) (data : List UInt8)
    (buffer : Option Allocation) (outputLen : Nat) (block : UserData)
    (plain : client.isChunkedResponse = false) (bounded : outputLen ≤ maxHttpOutputBuffer) :
    httpEventHandler client hasRoom (.onData data) ⟨buffer, outputLen⟩ (some block) =
      .ok (.ok, ⟨buffer, (min (outputLen + data.length) maxHttpOutputBuffer : Nat)⟩,
        some (stored outputLen data block)) := by
  simp only [httpEventHandler, cleanUserData_some, bind, Except.bind, plain,
    copyToUserData_ok data buffer outputLen _ bounded, stored]
  rfl

/-- A chunk of a chunked response clears the buffer at most. -/
theorem httpEventHandler_chunked (client : HttpClient) (hasRoom : Bool) (data : List UInt8)
    (buffer : Option Allocation) (outputLen : Nat) (block : UserData)
    (chunked : client.isChunkedResponse = true) :
    httpEventHandler client hasRoom (.onData data) ⟨buffer, outputLen⟩ (some block) =
      .ok (.ok, ⟨buffer, outputLen⟩,
        some (if outputLen = 0 then block.fill 0 maxHttpOutputBuffer else block)) := by
  simp only [httpEventHandler, cleanUserData_some, bind, Except.bind, chunked]
  rfl

/-- Every event leaves the offset inside the buffer and its last byte as it was. -/
theorem httpEventHandler_bounded (client : HttpClient) (hasRoom : Bool) (event : HttpEvent)
    (buffer : Option Allocation) (outputLen : Nat) (block : UserData)
    (bounded : outputLen ≤ maxHttpOutputBuffer) :
    ∃ (after : Option Allocation) (offset : Nat) (written : UserData),
      httpEventHandler client hasRoom event ⟨buffer, outputLen⟩ (some block) =
        .ok (.ok, ⟨after, offset⟩, some written) ∧
      offset ≤ maxHttpOutputBuffer ∧ written[maxHttpOutputBuffer] = block[maxHttpOutputBuffer] := by
  cases event with
  | onData data =>
      cases chunked : client.isChunkedResponse with
      | true =>
          refine ⟨buffer, outputLen, _,
            httpEventHandler_chunked client hasRoom data buffer outputLen block chunked, bounded, ?_⟩
          split
          · rw [Block.fill_getElem, if_neg (Nat.lt_irrefl _)]
          · rfl
      | false =>
          refine ⟨buffer, _, _,
            httpEventHandler_onData client hasRoom data buffer outputLen block chunked bounded,
            Nat.min_le_right _ _, ?_⟩
          rw [stored_getElem, if_neg (by omega), if_neg (by omega)]
  | onFinish | disconnected => exact ⟨none, 0, block, rfl, Nat.zero_le _, rfl⟩
  | error | onConnected | headerSent | onHeader | redirect =>
      exact ⟨buffer, outputLen, block, rfl, bounded, rfl⟩

end DesktopCube.Http
