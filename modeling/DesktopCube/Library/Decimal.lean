import Mathlib.Data.Nat.Digits.Lemmas

namespace Decimal

def digitByte (digit : Nat) : UInt8 := UInt8.ofNat (48 + digit)

/-- The base-10 text starts with the leading digit. -/
def natText (value : Nat) : List UInt8 :=
  if value = 0 then [48] else (Nat.digits 10 value).reverse.map digitByte

/-- A negative number starts with a minus sign. -/
def intText (value : Int) : List UInt8 :=
  if value < 0 then 45 :: natText value.natAbs else natText value.natAbs

theorem digitByte_toNat (digit : Nat) (small : digit < 10) : (digitByte digit).toNat = 48 + digit := by
  rw [digitByte, UInt8.toNat_ofNat']
  omega

theorem natText_digit (value : Nat) (byte : UInt8) (member : byte ∈ natText value) :
    48 ≤ byte.toNat ∧ byte.toNat ≤ 57 := by
  unfold natText at member
  split at member
  · rw [List.mem_singleton.mp member]
    decide
  · obtain ⟨digit, listed, rfl⟩ := List.mem_map.mp member
    have small : digit < 10 := Nat.digits_lt_base (by decide) (List.mem_reverse.mp listed)
    rw [digitByte_toNat digit small]
    omega

/-- Decimal text consists of digits and the minus sign. -/
theorem intText_byte (value : Int) (byte : UInt8) (member : byte ∈ intText value) :
    byte.toNat = 45 ∨ 48 ≤ byte.toNat ∧ byte.toNat ≤ 57 := by
  unfold intText at member
  split at member
  · rcases List.mem_cons.mp member with rfl | member
    · exact .inl rfl
    · exact .inr (natText_digit _ byte member)
  · exact .inr (natText_digit _ byte member)

theorem intText_not_mem (value : Int) (byte : UInt8) (sign : byte.toNat ≠ 45)
    (outside : byte.toNat < 48 ∨ 57 < byte.toNat) : byte ∉ intText value := by
  intro member
  rcases intText_byte value byte member with same | inside
  · exact sign same
  · omega

/-- A text of digits is read from its last digit. -/
def readNat (text : List UInt8) : Option Nat :=
  if !text.isEmpty && text.all fun byte => 48 ≤ byte.toNat && byte.toNat ≤ 57 then
    some (Nat.ofDigits 10 (text.reverse.map fun byte => byte.toNat - 48))
  else none

/-- A text that starts with a minus sign is a negative number. -/
def readInt : List UInt8 → Option Int
  | [] => none
  | first :: rest =>
      if first = 45 then (readNat rest).map fun value : Nat => -(value : Int)
      else (readNat (first :: rest)).map Int.ofNat

theorem natText_ne_nil (value : Nat) : natText value ≠ [] := by
  unfold natText
  split
  · exact List.cons_ne_nil 48 []
  · rename_i positive
    simpa [Nat.digits_ne_nil_iff_ne_zero] using positive

/-- The text is as long as its number of digits. -/
theorem natText_length_le_iff (value count : Nat) (positive : 0 < count) :
    (natText value).length ≤ count ↔ value < 10 ^ count := by
  unfold natText
  by_cases zero : value = 0
  · rw [if_pos zero, zero]
    exact iff_of_true positive (Nat.pow_pos (by decide))
  · rw [if_neg zero, List.length_map, List.length_reverse, Nat.digits_length_le_iff (by decide)]

/-- A minus sign takes the place of one digit. -/
theorem intText_length_le_iff (value : Int) (count : Nat) (positive : 0 < count) :
    (intText value).length ≤ count + 1 ↔ -(10 ^ count : Nat) < value ∧ value < (10 ^ (count + 1) : Nat) := by
  have more : 10 ^ (count + 1) = 10 * 10 ^ count := Nat.pow_succ'
  unfold intText
  by_cases negative : value < 0
  · rw [if_pos negative, List.length_cons, Nat.add_le_add_iff_right, natText_length_le_iff _ _ positive]
    omega
  · rw [if_neg negative, natText_length_le_iff _ _ (Nat.succ_pos count)]
    omega

theorem ofDigits_natText (value : Nat) :
    Nat.ofDigits 10 ((natText value).reverse.map fun byte => byte.toNat - 48) = value := by
  unfold natText
  split
  · rename_i zero
    rw [zero]
    rfl
  · have digits : ((Nat.digits 10 value).map digitByte).map (fun byte => byte.toNat - 48) =
        Nat.digits 10 value := by
      rw [List.map_map]
      refine (List.map_congr_left ?_).trans (List.map_id _)
      intro digit listed
      have small : digit < 10 := Nat.digits_lt_base (by decide) listed
      rw [Function.comp_apply, digitByte_toNat digit small, id_eq]
      omega
    rw [← List.map_reverse, List.reverse_reverse, digits, Nat.ofDigits_digits]

/-- Reading returns the number whose text was written. -/
theorem readNat_natText (value : Nat) : readNat (natText value) = some value := by
  have digits : (natText value).all (fun byte => 48 ≤ byte.toNat && byte.toNat ≤ 57) = true := by
    rw [List.all_eq_true]
    intro byte member
    simpa using natText_digit value byte member
  unfold readNat
  rw [digits, List.isEmpty_eq_false_iff.mpr (natText_ne_nil value), ofDigits_natText]
  rfl

theorem readInt_intText (value : Int) : readInt (intText value) = some value := by
  unfold intText
  split
  · rename_i negative
    rw [readInt, if_pos rfl, readNat_natText, Option.map_some]
    exact congrArg some (by omega)
  · rename_i positive
    cases text : natText value.natAbs with
    | nil => exact absurd text (natText_ne_nil _)
    | cons first rest =>
        have digit := natText_digit value.natAbs first (text ▸ List.mem_cons_self)
        have unsigned : first ≠ 45 := by
          rintro rfl
          exact absurd digit.1 (by decide)
        rw [readInt, if_neg unsigned, ← text, readNat_natText, Option.map_some]
        exact congrArg some (Int.natAbs_of_nonneg (Int.not_lt.mp positive))

end Decimal
