import Mathlib.Data.List.Basic

namespace BoundedQueue

/-- A queue never holds more items than its capacity. -/
structure Queue (α : Type) (capacity : Nat) where
  items : List α
  fits : items.length ≤ capacity

namespace Queue

variable {α : Type} {capacity : Nat}

def empty : Queue α capacity := ⟨[], Nat.zero_le capacity⟩

/-- The queue can take one more item. -/
def HasRoom (queue : Queue α capacity) : Prop := queue.items.length < capacity

instance (queue : Queue α capacity) : Decidable queue.HasRoom := inferInstanceAs (Decidable (_ < _))

/-- A full queue refuses the item. -/
def send (queue : Queue α capacity) (item : α) : Option (Queue α capacity) :=
  if room : queue.HasRoom then
    some ⟨queue.items ++ [item], by rw [List.length_append]; exact room⟩
  else none

/-- The oldest item leaves first. -/
def receive (queue : Queue α capacity) : Option (α × Queue α capacity) :=
  match queue with
  | ⟨[], _⟩ => none
  | ⟨item :: rest, fits⟩ => some (item, ⟨rest, Nat.le_of_succ_le fits⟩)

theorem eq_of_items {queue other : Queue α capacity} (same : queue.items = other.items) : queue = other := by
  cases queue
  cases other
  cases same
  rfl

theorem send_of_room {queue : Queue α capacity} (room : queue.HasRoom) (item : α) :
    ∃ next, queue.send item = some next ∧ next.items = queue.items ++ [item] := by
  rw [send, dif_pos room]
  exact ⟨_, rfl, rfl⟩

/-- An accepted item is the newest one. -/
theorem send_some {queue next : Queue α capacity} {item : α} (sent : queue.send item = some next) :
    next.items = queue.items ++ [item] := by
  unfold send at sent
  split at sent
  · cases sent
    rfl
  · cases sent

theorem send_of_full {queue : Queue α capacity} (full : ¬ queue.HasRoom) (item : α) :
    queue.send item = none :=
  dif_neg full

theorem receive_some {queue next : Queue α capacity} {item : α}
    (received : queue.receive = some (item, next)) : queue.items = item :: next.items := by
  obtain ⟨items, fits⟩ := queue
  cases items with
  | nil => cases received
  | cons first rest =>
      cases received
      rfl

theorem receive_isSome {queue : Queue α capacity} (present : queue.items ≠ []) : queue.receive.isSome := by
  obtain ⟨items, fits⟩ := queue
  cases items with
  | nil => exact absurd rfl present
  | cons first rest => rfl

section Map

variable {β : Type} (f : α → β)

/-- A queue of other items with the same room. -/
def map (queue : Queue α capacity) : Queue β capacity :=
  ⟨queue.items.map f, by rw [List.length_map]; exact queue.fits⟩

/-- The mapped queue takes and refuses the mapped items. -/
theorem map_send (queue : Queue α capacity) (item : α) :
    (queue.map f).send (f item) = (queue.send item).map (map f) := by
  by_cases room : queue.HasRoom
  · have mapped : (queue.map f).HasRoom := by
      rw [HasRoom, map, List.length_map]
      exact room
    rw [send, send, dif_pos room, dif_pos mapped]
    simp [map]
  · have mapped : ¬ (queue.map f).HasRoom := by
      rw [HasRoom, map, List.length_map]
      exact room
    rw [send_of_full room, send_of_full mapped]
    rfl

theorem map_receive (queue : Queue α capacity) :
    (queue.map f).receive = queue.receive.map fun received => (f received.1, received.2.map f) := by
  obtain ⟨items, fits⟩ := queue
  cases items with
  | nil => rfl
  | cons first rest => rfl

end Map

end Queue

end BoundedQueue
