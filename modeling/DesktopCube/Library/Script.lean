import Mathlib.Data.List.Basic

namespace Script

variable {Call : Type} [DecidableEq Call]

/-- No occurrence of the second call comes before the first call. -/
def precedes (first second : Call) : List Call → Bool
  | [] => true
  | call :: rest => call != second && (call == first || precedes first second rest)

/-- A call that has an earlier one in the script waits for the effect of the earlier one. -/
def InOrder (script remaining : List Call) (effect : Call → Prop) : Prop :=
  ∀ first, ∀ second ∈ script, precedes first second script = true →
    effect first ∨ precedes first second remaining = true

namespace InOrder

variable {script remaining rest : List Call} {call : Call} {effect later : Call → Prop}

theorem start (script : List Call) (effect : Call → Prop) : InOrder script script effect :=
  fun _ _ _ ordered => .inr ordered

/-- A script that has ended makes no further call. -/
theorem ended (script : List Call) (effect : Call → Prop) : InOrder script [] effect :=
  fun _ _ _ _ => .inr rfl

/-- An executed call leaves the script with its effect. -/
theorem tail (order : InOrder script (call :: rest) effect) (grows : ∀ call, effect call → later call)
    (executed : later call) : InOrder script rest later := by
  intro first second member ordered
  rcases order first second member ordered with before | waiting
  · exact .inl (grows first before)
  · rw [precedes, Bool.and_eq_true, Bool.or_eq_true, beq_iff_eq] at waiting
    rcases waiting.2 with rfl | waiting
    · exact .inl executed
    · exact .inr waiting

/-- A call from outside the script may come in between. -/
theorem push (order : InOrder script remaining effect) (outside : call ∉ script) :
    InOrder script (call :: remaining) effect := by
  intro first second member ordered
  apply (order first second member ordered).imp_right
  intro waiting
  rw [precedes, waiting, Bool.or_true, Bool.and_true, bne_iff_ne]
  rintro rfl
  exact outside member

/-- The next call of the script finds the effects of all calls before it. -/
theorem before (order : InOrder script (call :: rest) effect) (member : call ∈ script) (first : Call)
    (ordered : precedes first call script = true) : effect first := by
  apply (order first call member ordered).resolve_right
  simp [precedes]

end InOrder

end Script
