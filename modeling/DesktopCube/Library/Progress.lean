import DesktopCube.Library.Machine
import Mathlib.Data.List.Count

namespace Transition.Machine

variable {State Label : Type} {machine : Machine State Label}

/-- The counted steps use up the potential until the goal holds and no other step adds to it. -/
structure Advances (machine : Machine State Label) (holds goal : State → Prop) (counted : Label → Bool)
    (potential : State → Nat) : Prop where
  kept : ∀ state label next, holds state → machine.step state label = some next → holds next
  stays : ∀ state label next, holds state → goal state → machine.step state label = some next → goal next
  moves : ∀ state label next, holds state → machine.step state label = some next →
    goal next ∨ potential next + (counted label).toNat ≤ potential state

namespace Advances

variable {holds goal : State → Prop} {counted : Label → Bool} {potential : State → Nat} {start state : State}
  {labels : List Label}

theorem holds_run (advances : Advances machine holds goal counted potential) (atStart : holds start)
    (finished : machine.run start labels = some state) : holds state := by
  have path : machine.Reaches (fun _ _ => True) start state := run_reaches finished fun _ _ _ => trivial
  exact path.invariant holds atStart fun before label after safe _ taken => advances.kept _ _ _ safe taken

theorem stays_run (advances : Advances machine holds goal counted potential) (atStart : holds start)
    (reached : goal start) (finished : machine.run start labels = some state) : goal state := by
  have path : machine.Reaches (fun _ _ => True) start state := run_reaches finished fun _ _ _ => trivial
  apply And.right
  apply path.invariant (fun state => holds state ∧ goal state) ⟨atStart, reached⟩
  intro before label after both _ taken
  exact ⟨advances.kept _ _ _ both.1 taken, advances.stays _ _ _ both.1 both.2 taken⟩

/-- The counted steps of a run that has not reached its goal come out of the potential. -/
theorem run (advances : Advances machine holds goal counted potential) (atStart : holds start)
    (finished : machine.run start labels = some state) :
    goal state ∨ potential state + labels.countP counted ≤ potential start := by
  induction labels generalizing start with
  | nil =>
      rw [Machine.run, Option.some.injEq] at finished
      rw [finished, List.countP_nil]
      exact .inr (Nat.le_refl _)
  | cons label rest ih =>
      rw [Machine.run, Option.bind_eq_some_iff] at finished
      obtain ⟨middle, taken, finished⟩ := finished
      have between := advances.kept _ _ _ atStart taken
      rcases advances.moves _ _ _ atStart taken with done | first
      · exact .inl (advances.stays_run between done finished)
      · apply (ih between finished).imp_right
        intro later
        rw [List.countP_cons]
        cases counts : counted label with
        | true =>
            rw [counts, Bool.toNat_true] at first
            simp only [if_true]
            omega
        | false =>
            rw [counts, Bool.toNat_false] at first
            simp only [Bool.false_eq_true, if_false]
            omega

end Advances

end Transition.Machine
