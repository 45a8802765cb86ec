import DesktopCube.Library.CMemory
import Mathlib.Data.List.Nodup
import Mathlib.Logic.Function.Basic

namespace CMemory

/-- Every address that the heap has issued is live or was freed once. -/
structure Heap (β : Type) where
  contents : Nat → Option β
  freed : List Nat
  next : Nat
  issued : ∀ address, address < next ↔ contents address ≠ none ∨ address ∈ freed
  once : freed.Nodup
  dead : ∀ address ∈ freed, contents address = none

namespace Heap

variable {β : Type}

def empty : Heap β where
  contents _ := none
  freed := []
  next := 0
  issued _ := by simp
  once := List.nodup_nil
  dead _ member := nomatch member

theorem contents_next (heap : Heap β) : heap.contents heap.next = none := by
  by_contra live
  exact Nat.lt_irrefl _ ((heap.issued heap.next).mpr (.inl live))

theorem next_not_freed (heap : Heap β) : heap.next ∉ heap.freed :=
  fun freed => Nat.lt_irrefl _ ((heap.issued heap.next).mpr (.inr freed))

/-- A successful allocation returns the block at the address `next`. -/
def malloc (heap : Heap β) (value : β) : Heap β where
  contents := Function.update heap.contents heap.next (some value)
  freed := heap.freed
  next := heap.next + 1
  issued address := by
    by_cases fresh : address = heap.next
    · subst fresh
      simp
    · have before := heap.issued address
      rw [Function.update_of_ne fresh, ← before]
      omega
  once := heap.once
  dead address member := by
    have old : address ≠ heap.next := fun same => heap.next_not_freed (same ▸ member)
    rw [Function.update_of_ne old]
    exact heap.dead address member

/-- Only a live block can be freed. -/
def free (heap : Heap β) (address : Nat) : Except Fault (Heap β) :=
  if live : heap.contents address ≠ none then
    .ok {
      contents := Function.update heap.contents address none
      freed := address :: heap.freed
      next := heap.next
      issued := by
        intro other
        rw [heap.issued other, List.mem_cons]
        by_cases same : other = address
        · subst same
          simp [live]
        · rw [Function.update_of_ne same]
          simp [same]
      once := List.nodup_cons.mpr ⟨fun member => live (heap.dead address member), heap.once⟩
      dead := by
        intro other member
        by_cases same : other = address
        · rw [same, Function.update_self]
        · rw [Function.update_of_ne same]
          exact heap.dead other ((List.mem_cons.mp member).resolve_left same) }
  else .error .invalidFree

theorem malloc_contents (heap : Heap β) (value : β) :
    (heap.malloc value).contents = Function.update heap.contents heap.next (some value) := rfl

theorem malloc_next (heap : Heap β) (value : β) : (heap.malloc value).next = heap.next + 1 := rfl

/-- A new block leaves the old ones. -/
theorem malloc_contents_of_live {heap : Heap β} {address : Nat} {value old : β}
    (live : heap.contents address = some old) :
    (heap.malloc value).contents address = some old := by
  have different : address ≠ heap.next := by
    rintro rfl
    rw [heap.contents_next] at live
    cases live
  rw [malloc_contents, Function.update_of_ne different, live]

/-- A free of a live block succeeds and leaves the other blocks. -/
theorem free_live {heap : Heap β} {address : Nat} {value : β}
    (live : heap.contents address = some value) :
    ∃ after, heap.free address = .ok after ∧
      after.contents = Function.update heap.contents address none := by
  rw [free, dif_pos (by rw [live]; exact Option.some_ne_none value)]
  exact ⟨_, rfl, rfl⟩

/-- A free that succeeds leaves the other blocks. -/
theorem free_contents {heap after : Heap β} {address : Nat} (freed : heap.free address = .ok after) :
    after.contents = Function.update heap.contents address none := by
  unfold free at freed
  split at freed
  · cases freed
    rfl
  · cases freed

/-- A block that was issued and is not live was freed exactly once. -/
theorem freed_once (heap : Heap β) {address : Nat} (issued : address < heap.next)
    (gone : heap.contents address = none) : heap.freed.count address = 1 := by
  have member : address ∈ heap.freed :=
    ((heap.issued address).mp issued).resolve_left fun live => live gone
  exact List.count_eq_one_of_mem heap.once member

end Heap

end CMemory
