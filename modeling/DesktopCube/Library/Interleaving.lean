import Mathlib.Data.List.Basic

namespace Interleaving

variable {ι α : Type} [DecidableEq ι]

/-- The part of a tagged sequence that belongs to one source. -/
def part (tagged : List (ι × α)) (source : ι) : List α :=
  (tagged.filter fun item => item.1 = source).map Prod.snd

/-- A sequence interleaves the parts when some tagging sends each item to its source. -/
def Interleaves (merged : List α) (parts : ι → List α) : Prop :=
  ∃ tagged : List (ι × α), tagged.map Prod.snd = merged ∧ part tagged = parts

theorem interleaves_part (tagged : List (ι × α)) :
    Interleaves (tagged.map Prod.snd) (part tagged) :=
  ⟨tagged, rfl, rfl⟩

/-- An item of an extended sequence is the new last item or an item of the sequence before. -/
theorem split_last {sequence before rest : List α} {last item : α}
    (split : sequence ++ [last] = before ++ item :: rest) :
    rest = [] ∧ sequence = before ∧ last = item ∨
      ∃ first, rest = first ++ [last] ∧ sequence = before ++ item :: first := by
  rcases List.eq_nil_or_concat' rest with rfl | ⟨first, final, rfl⟩
  · obtain ⟨same, ends⟩ := List.append_inj' split rfl
    exact .inl ⟨rfl, same, (List.cons.inj ends).1⟩
  · rw [← List.cons_append, ← List.append_assoc] at split
    obtain ⟨same, ends⟩ := List.append_inj' split rfl
    exact .inr ⟨first, by rw [ends], same⟩

end Interleaving
