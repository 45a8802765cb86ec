import Mathlib.Data.List.Basic

namespace CMemory

/-- The operations that leave the meaning of a C program undefined. -/
inductive Fault where
  | nullDereference
  | outOfBounds
  | invalidFree
  | signedOverflow
  deriving DecidableEq, Repr

/-- A C string ends at its first zero byte. -/
@[ext] structure CString where
  bytes : List UInt8
  noNul : (0 : UInt8) ∉ bytes

/-- A string literal of ASCII characters. -/
def ascii (text : String) : List UInt8 := text.toList.map fun symbol => UInt8.ofNat symbol.toNat

/-- An access through a pointer faults when the pointer is NULL. -/
def deref {α : Type} : Option α → Except Fault α
  | some target => .ok target
  | none => .error .nullDereference

theorem deref_eq_ok {α : Type} {pointer : Option α} {target : α} :
    deref pointer = .ok target ↔ pointer = some target := by
  cases pointer <;> simp [deref]

/-- The value of an expression of type `int` must fit the type. -/
def checkInt (value : Int) : Except Fault Int :=
  if -0x80000000 ≤ value ∧ value < 0x80000000 then .ok value else .error .signedOverflow

theorem checkInt_ok {value : Int} (lower : -0x80000000 ≤ value) (upper : value < 0x80000000) :
    checkInt value = .ok value := if_pos ⟨lower, upper⟩

/-- A sequence of accesses succeeds when each of them does. -/
theorem bind_eq_ok {α β : Type} {first : Except Fault α} {rest : α → Except Fault β} {result : β} :
    (first >>= rest) = .ok result ↔ ∃ value, first = .ok value ∧ rest value = .ok result := by
  cases first <;> simp [bind, Except.bind]

end CMemory
