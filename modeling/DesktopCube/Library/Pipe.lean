import DesktopCube.Library.Machine
import Mathlib.Data.List.Basic

namespace Transition

/-- An abstract queue remembers everything that went in and came out. -/
@[ext] structure Pipe (α : Type) where
  sent : List α
  delivered : List α
  pending : List α

namespace Pipe

variable {α : Type}

inductive Label (α : Type) where
  | send (items : List α)
  | deliver (count : Nat)

def empty : Pipe α := ⟨[], [], []⟩

/-- New items go to the end and old items leave from the front. -/
def step (pipe : Pipe α) : Label α → Option (Pipe α)
  | .send items => some { pipe with sent := pipe.sent ++ items, pending := pipe.pending ++ items }
  | .deliver count => some { pipe with
      delivered := pipe.delivered ++ pipe.pending.take count
      pending := pipe.pending.drop count }

def machine (α : Type) : Machine (Pipe α) (Label α) := ⟨empty, step⟩

/-- No item is lost, repeated or moved past another one. -/
theorem sent_eq {pipe : Pipe α} (reached : (machine α).Reachable pipe) :
    pipe.sent = pipe.delivered ++ pipe.pending := by
  refine Machine.Reaches.invariant (fun pipe => pipe.sent = pipe.delivered ++ pipe.pending)
    reached rfl ?_
  intro pipe label next same _ taken
  cases label with
  | send items =>
      cases taken
      simp only [same, List.append_assoc]
  | deliver count =>
      cases taken
      simp only [same, List.append_assoc, List.take_append_drop]

end Pipe

end Transition
