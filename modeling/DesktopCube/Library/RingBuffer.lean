import Mathlib.Data.List.Basic

namespace RingBuffer

/-- A retrieved item keeps its place until its return. -/
@[ext] structure Ringbuffer (α : Type) (capacity : Nat) where
  waiting : List α
  taken : List α
  fits : waiting.length + taken.length ≤ capacity

namespace Ringbuffer

variable {α : Type} {capacity : Nat}

def empty : Ringbuffer α capacity := ⟨[], [], Nat.zero_le capacity⟩

/-- The ring counts only the items that no receiver has retrieved. -/
def itemsWaiting (ring : Ringbuffer α capacity) : Nat := ring.waiting.length

/-- A send stores the whole packet or leaves the ring unchanged. -/
def send (ring : Ringbuffer α capacity) (packet : List α) : Option (Ringbuffer α capacity) :=
  if room : ring.waiting.length + ring.taken.length + packet.length ≤ capacity then
    some ⟨ring.waiting ++ packet, ring.taken, by rw [List.length_append]; omega⟩
  else none

/-- A second retrieval waits for the return of the first item. -/
def available (ring : Ringbuffer α capacity) : Bool :=
  ring.taken.isEmpty && !ring.waiting.isEmpty

/-- The size of an item is limited by the request and by the end of the storage area. -/
def itemSize (ring : Ringbuffer α capacity) (limit contiguous : Nat) : Nat :=
  min limit (min (max 1 contiguous) ring.waiting.length)

/-- A receive hands out a prefix of the waiting items. -/
def receiveUpTo (ring : Ringbuffer α capacity) (limit contiguous : Nat) : Option (Ringbuffer α capacity) :=
  if ring.available then
    some ⟨ring.waiting.drop (ring.itemSize limit contiguous),
      ring.waiting.take (ring.itemSize limit contiguous), by
        have fits := ring.fits
        rw [List.length_drop, List.length_take]
        omega⟩
  else none

def returnItem (ring : Ringbuffer α capacity) : Ringbuffer α capacity :=
  ⟨ring.waiting, [], by have fits := ring.fits; simp only [List.length_nil]; omega⟩

@[simp] theorem empty_waiting : (empty : Ringbuffer α capacity).waiting = [] := rfl

@[simp] theorem empty_taken : (empty : Ringbuffer α capacity).taken = [] := rfl

@[simp] theorem returnItem_waiting (ring : Ringbuffer α capacity) :
    ring.returnItem.waiting = ring.waiting := rfl

/-- An accepted packet follows the waiting items. -/
theorem send_some {ring next : Ringbuffer α capacity} {packet : List α}
    (sent : ring.send packet = some next) :
    next.waiting = ring.waiting ++ packet ∧ next.taken = ring.taken := by
  unfold send at sent
  split at sent
  · cases sent
    exact ⟨rfl, rfl⟩
  · cases sent

theorem send_eq_none_iff (ring : Ringbuffer α capacity) (packet : List α) :
    ring.send packet = none ↔
      capacity < ring.waiting.length + ring.taken.length + packet.length := by
  unfold send
  split <;> simp <;> omega

theorem itemsWaiting_le_send {ring next : Ringbuffer α capacity} {packet : List α}
    (sent : ring.send packet = some next) : ring.itemsWaiting ≤ next.itemsWaiting := by
  rw [itemsWaiting, itemsWaiting, (send_some sent).1, List.length_append]
  omega

theorem available_iff (ring : Ringbuffer α capacity) :
    ring.available = true ↔ ring.taken = [] ∧ ring.waiting ≠ [] := by
  simp [available]

/-- A retrieved item and the rest are the former content. -/
theorem receiveUpTo_some {ring next : Ringbuffer α capacity} {limit contiguous : Nat}
    (received : ring.receiveUpTo limit contiguous = some next) :
    next.taken ++ next.waiting = ring.waiting ∧ next.taken.length ≤ limit := by
  unfold receiveUpTo at received
  split at received
  · cases received
    refine ⟨List.take_append_drop _ _, ?_⟩
    simp only [List.length_take, itemSize]
    omega
  · cases received

/-- A retrieved item is not empty. -/
theorem receiveUpTo_taken_ne_nil {ring next : Ringbuffer α capacity} {limit contiguous : Nat}
    (positive : 0 < limit) (received : ring.receiveUpTo limit contiguous = some next) :
    next.taken ≠ [] := by
  unfold receiveUpTo at received
  split at received
  · rename_i available
    cases received
    have present : 0 < ring.waiting.length :=
      List.length_pos_of_ne_nil ((available_iff ring).mp available).2
    rw [← List.length_pos_iff, List.length_take, itemSize]
    omega
  · cases received

theorem receiveUpTo_of_available {ring : Ringbuffer α capacity} (limit contiguous : Nat)
    (available : ring.available = true) :
    ∃ next, ring.receiveUpTo limit contiguous = some next :=
  ⟨_, if_pos available⟩

/-- A ring with enough contiguous items hands out as many as the receiver wants. -/
theorem receiveUpTo_limit {ring : Ringbuffer α capacity} {limit : Nat} (returned : ring.taken = [])
    (positive : 0 < limit) (enough : limit ≤ ring.waiting.length) :
    ∃ next, ring.receiveUpTo limit limit = some next ∧ next.taken = ring.waiting.take limit ∧
      next.waiting = ring.waiting.drop limit := by
  have size : ring.itemSize limit limit = limit := by
    unfold itemSize
    omega
  have available : ring.available = true :=
    (available_iff ring).mpr ⟨returned, List.ne_nil_of_length_pos (Nat.lt_of_lt_of_le positive enough)⟩
  exact ⟨_, if_pos available, congrArg ring.waiting.take size, congrArg ring.waiting.drop size⟩

/-- A ring without an item in use refuses a receive only when it is empty. -/
theorem receiveUpTo_none {ring : Ringbuffer α capacity} {limit contiguous : Nat} (returned : ring.taken = [])
    (refused : ring.receiveUpTo limit contiguous = none) : ring.waiting = [] := by
  by_contra present
  obtain ⟨next, received⟩ :=
    receiveUpTo_of_available limit contiguous ((available_iff ring).mpr ⟨returned, present⟩)
  rw [received] at refused
  cases refused

end Ringbuffer

end RingBuffer
