import DesktopCube.Http.EventHandler
import DesktopCube.Library.Interleaving
import DesktopCube.Library.Machine
import Mathlib.Data.List.Induction
import Mathlib.Logic.Function.Basic

namespace DesktopCube.Http
open Transition CMemory Interleaving

/-- Two tasks use the handler at the same time. -/
inductive Request where
  | time
  | weather
  deriving DecidableEq, Repr

/-- An arrival leaves the bytes of a chunk to the body of the response. -/
inductive Arrival where
  | connected
  | headerSent
  | header
  | data (size : Nat)
  | finish
  | disconnected
  deriving DecidableEq, Repr

/-- The chunk of a body that follows the bytes received so far. -/
def chunk (body : Nat → UInt8) (received size : Nat) : List UInt8 :=
  (List.range size).map fun offset => body (received + offset)

def Arrival.event (body : Nat → UInt8) (received : Nat) : Arrival → HttpEvent
  | .connected => .onConnected
  | .headerSent => .headerSent
  | .header => .onHeader
  | .data size => .onData (chunk body received size)
  | .finish => .onFinish
  | .disconnected => .disconnected

def Arrival.size : Arrival → Nat
  | .data size => size
  | _ => 0

/-- Each request has its own buffer but both share the static variables. -/
structure Overlap where
  statics : Statics
  userData : Request → UserData
  received : Request → Nat

def Overlap.start : Overlap := ⟨Statics.start, fun _ => Block.zeros, fun _ => 0⟩

/-- The handler never reads the length of a plain response with a configured buffer. -/
def plainClient : HttpClient := ⟨false, -1⟩

/-- The client of one request delivers its next event. -/
def Overlap.step (bodies : Request → Nat → UInt8) (w : Overlap) (label : Request × Arrival) :
    Option Overlap :=
  let (request, arrival) := label
  match httpEventHandler plainClient true (arrival.event (bodies request) (w.received request))
      w.statics (some (w.userData request)) with
  | .ok (_, statics, some block) =>
      some {
        statics := statics
        userData := Function.update w.userData request block
        received := Function.update w.received request (w.received request + arrival.size) }
  | _ => none

def overlapMachine (bodies : Request → Nat → UInt8) : Machine Overlap (Request × Arrival) :=
  ⟨Overlap.start, Overlap.step bodies⟩

/-- The lengths of the chunks alone determine the offset and the received bytes. -/
structure Progress where
  outputLen : Nat
  received : Request → Nat
  bounded : outputLen ≤ maxHttpOutputBuffer

def Progress.start : Progress := ⟨0, fun _ => 0, Nat.zero_le _⟩

def Progress.advance (p : Progress) (label : Request × Arrival) : Progress :=
  match label.2 with
  | .data size =>
      ⟨min (p.outputLen + size) maxHttpOutputBuffer,
        Function.update p.received label.1 (p.received label.1 + size), Nat.min_le_right _ _⟩
  | .finish | .disconnected => ⟨0, p.received, Nat.zero_le _⟩
  | .connected | .headerSent | .header => p

def progress (labels : List (Request × Arrival)) : Progress :=
  labels.foldl Progress.advance Progress.start

theorem progress_append (labels : List (Request × Arrival)) (label : Request × Arrival) :
    progress (labels ++ [label]) = (progress labels).advance label := by
  rw [progress, List.foldl_append]
  rfl

theorem advance_received (p : Progress) (label : Request × Arrival) :
    (p.advance label).received =
      Function.update p.received label.1 (p.received label.1 + label.2.size) := by
  obtain ⟨request, arrival⟩ := label
  cases arrival with
  | data size => rfl
  | finish | disconnected | connected | headerSent | header =>
      exact (Function.update_eq_self request p.received).symm

theorem chunk_getD (body : Nat → UInt8) (received size index : Nat) :
    (chunk body received size).getD index 0 = if index < size then body (received + index) else 0 := by
  by_cases inside : index < size
  · simp [chunk, inside]
  · simp [chunk, inside]

theorem chunk_length (body : Nat → UInt8) (received size : Nat) :
    (chunk body received size).length = size := by
  rw [chunk, List.length_map, List.length_range]

/-- The buffer after one arrival for its request. -/
def Arrival.written (body : Nat → UInt8) (outputLen received : Nat) (block : UserData) :
    Arrival → UserData
  | .data size => stored outputLen (chunk body received size) block
  | _ => block

/-- The state has the offset and the counts of the lengths alone. -/
structure Follows (w : Overlap) (p : Progress) : Prop where
  outputLen : w.statics.outputLen = p.outputLen
  received : w.received = p.received

/-- No arrival fails and only the request of the arrival sees its buffer change. -/
theorem Overlap.step_follows {w : Overlap} {p : Progress} (follows : Follows w p)
    (bodies : Request → Nat → UInt8) (request : Request) (arrival : Arrival) :
    ∃ next, Overlap.step bodies w (request, arrival) = some next ∧
      Follows next (p.advance (request, arrival)) ∧
      next.userData = Function.update w.userData request
        (arrival.written (bodies request) p.outputLen (p.received request) (w.userData request)) := by
  obtain ⟨⟨buffer, outputLen⟩, userData, received⟩ := w
  obtain ⟨rfl, rfl⟩ := follows
  cases arrival with
  | data size =>
      have delivered := httpEventHandler_onData plainClient true
        (chunk (bodies request) (p.received request) size) buffer p.outputLen (userData request)
        rfl p.bounded
      rw [chunk_length] at delivered
      refine ⟨_, by rw [Overlap.step]; simp only [Arrival.event, delivered]; rfl, ⟨rfl, rfl⟩, rfl⟩
  | finish | disconnected | connected | headerSent | header =>
      exact ⟨_, rfl, ⟨rfl, Function.update_eq_self _ _⟩, rfl⟩

/-- A property of the lengths and the buffers holds after a run when each arrival keeps it. -/
theorem run_keeps (bodies : Request → Nat → UInt8)
    (keeps : List (Request × Arrival) → (Request → UserData) → Prop)
    (atStart : keeps [] Overlap.start.userData)
    (step : ∀ before userData request arrival, keeps before userData →
      keeps (before ++ [(request, arrival)]) (Function.update userData request
        (arrival.written (bodies request) (progress before).outputLen
          ((progress before).received request) (userData request))))
    (labels : List (Request × Arrival)) :
    ∃ w, (overlapMachine bodies).run Overlap.start labels = some w ∧ Follows w (progress labels) ∧
      keeps labels w.userData := by
  induction labels using List.reverseRecOn with
  | nil => exact ⟨_, rfl, ⟨rfl, rfl⟩, atStart⟩
  | append_singleton labels label ih =>
      obtain ⟨w, finished, follows, kept⟩ := ih
      obtain ⟨next, taken, advanced, written⟩ :=
        Overlap.step_follows follows bodies label.1 label.2
      refine ⟨next, ?_, ?_, ?_⟩
      · rw [Machine.run_append, finished, Option.bind_some, Machine.run_singleton]
        exact taken
      · rw [progress_append]
        exact advanced
      · rw [written]
        exact step labels w.userData label.1 label.2 kept

end DesktopCube.Http
