import DesktopCube.Library.CMemory
import Mathlib.Data.List.GetD

namespace CMemory

/-- A block keeps its size under every write. -/
abbrev Block (size : Nat) := Vector UInt8 size

variable {size : Nat}

def Block.zeros : Block size := Vector.replicate size 0

/-- The first `count` bytes of the block become `value`. -/
def Block.fill (block : Block size) (value : UInt8) (count : Nat) : Block size :=
  Vector.ofFn fun index => if index < count then value else block[index]

/-- The first `count` bytes of the source replace the bytes from `offset` on. -/
def Block.overlay (block : Block size) (offset : Nat) (source : List UInt8) (count : Nat) : Block size :=
  Vector.ofFn fun index =>
    if offset ≤ index ∧ index < offset + count then source.getD (index - offset) 0 else block[index]

/-- The fill must stay inside the block. -/
def memset (block : Block size) (value : UInt8) (count : Int) : Except Fault (Block size) :=
  if 0 ≤ count ∧ count ≤ size then .ok (block.fill value count.toNat) else .error .outOfBounds

/-- The copy must stay inside the source and the block. -/
def memcpy (block : Block size) (offset : Int) (source : List UInt8) (count : Int) :
    Except Fault (Block size) :=
  if 0 ≤ offset ∧ 0 ≤ count ∧ offset + count ≤ size ∧ count ≤ source.length then
    .ok (block.overlay offset.toNat source count.toNat)
  else .error .outOfBounds

theorem Block.zeros_getElem (index : Nat) (inside : index < size) :
    (Block.zeros : Block size)[index] = 0 := by
  simp [Block.zeros]

theorem Block.fill_getElem (block : Block size) (value : UInt8) (count index : Nat)
    (inside : index < size) :
    (block.fill value count)[index] = if index < count then value else block[index] := by
  simp [Block.fill]

theorem Block.overlay_getElem (block : Block size) (offset : Nat) (source : List UInt8)
    (count index : Nat) (inside : index < size) :
    (block.overlay offset source count)[index] =
      if offset ≤ index ∧ index < offset + count then source.getD (index - offset) 0
      else block[index] := by
  simp [Block.overlay]

/-- A copy of no bytes leaves the block. -/
theorem Block.overlay_zero (block : Block size) (offset : Nat) (source : List UInt8) :
    block.overlay offset source 0 = block := by
  apply Vector.ext
  intro index inside
  rw [Block.overlay_getElem, if_neg (by omega)]

theorem memset_ok (block : Block size) (value : UInt8) (count : Nat) (room : count ≤ size) :
    memset block value count = .ok (block.fill value count) := by
  rw [memset, if_pos (by omega), Int.toNat_natCast]

theorem memcpy_ok (block : Block size) (offset : Nat) (source : List UInt8) (count : Nat)
    (room : offset + count ≤ size) (available : count ≤ source.length) :
    memcpy block offset source count = .ok (block.overlay offset source count) := by
  rw [memcpy, if_pos (by omega), Int.toNat_natCast, Int.toNat_natCast]

/-- The string of a block ends at its first zero byte. -/
def Block.text (block : Block size) : Except Fault CString :=
  if (0 : UInt8) ∈ block.toList then
    .ok ⟨block.toList.takeWhile (· ≠ 0), fun member => by
      simpa using List.all_eq_true.mp List.all_takeWhile 0 member⟩
  else .error .outOfBounds

/-- A block with a zero byte holds a string. -/
theorem Block.text_ok (block : Block size) (index : Nat) (inside : index < size)
    (zero : block[index] = 0) : ∃ text, block.text = .ok text := by
  have member : (0 : UInt8) ∈ block.toList := by
    rw [← zero, Vector.mem_toList_iff]
    exact Vector.getElem_mem inside
  exact ⟨_, if_pos member⟩

/-- A block that holds bytes with zeros behind them holds the string up to their first zero. -/
theorem Block.text_ofFn (bytes : List UInt8) (room : bytes.length ≤ size) :
    ∃ text, Block.text (Vector.ofFn fun index : Fin (size + 1) => bytes.getD index 0) = .ok text ∧
      text.bytes = bytes.takeWhile (· ≠ 0) := by
  have zeros : (Vector.ofFn fun index : Fin (size + 1) => bytes.getD index 0).toList =
      bytes ++ List.replicate (size - bytes.length + 1) 0 := by
    apply List.ext_getElem
    · rw [Vector.length_toList, List.length_append, List.length_replicate]
      omega
    · intro index inside _
      rw [Vector.getElem_toList, Vector.getElem_ofFn, List.getElem_append]
      split
      · rename_i early
        exact List.getD_eq_getElem _ _ early
      · rename_i late
        rw [List.getElem_replicate]
        exact List.getD_eq_default _ _ (Nat.le_of_not_lt late)
  have member : (0 : UInt8) ∈ bytes ++ List.replicate (size - bytes.length + 1) 0 := by simp
  rw [← zeros] at member
  refine ⟨_, if_pos member, ?_⟩
  show List.takeWhile _ (Vector.ofFn fun index : Fin (size + 1) => bytes.getD index 0).toList = _
  rw [zeros, List.takeWhile_append, List.replicate_succ, List.takeWhile_cons_of_neg (by simp), List.append_nil]
  split
  · rename_i whole
    exact ((List.takeWhile_prefix _).eq_of_length whole).symm
  · rfl

/-- A cleared block holds the empty string. -/
theorem Block.text_zeros : (Block.zeros : Block (size + 1)).text = .ok ⟨[], List.not_mem_nil⟩ := by
  have bytes : (Block.zeros : Block (size + 1)).toList = 0 :: List.replicate size 0 := by
    simp [Block.zeros, List.replicate_succ]
  unfold text
  rw [if_pos (by rw [bytes]; exact List.mem_cons_self)]
  simp [bytes]

end CMemory
