import Mathlib.Logic.Basic

namespace Transition

/-- A machine takes at most one step on each label. -/
structure Machine (State Label : Type) where
  initial : State
  step : State → Label → Option State

namespace Machine

variable {State Label : Type} (machine : Machine State Label)

/-- A run takes its labels in order. -/
def run : State → List Label → Option State
  | state, [] => some state
  | state, label :: rest => (machine.step state label).bind fun next => run next rest

/-- Every step of the path meets the condition before it is taken. -/
inductive Reaches (allowed : State → Label → Prop) (start : State) : State → Prop
  | refl : Reaches allowed start start
  | step {state next : State} (before : Reaches allowed start state) (label : Label)
      (meets : allowed state label) (taken : machine.step state label = some next) :
      Reaches allowed start next

/-- A reachable state ends a path without a condition on its steps. -/
def Reachable (state : State) : Prop :=
  machine.Reaches (fun _ _ => True) machine.initial state

variable {machine} {allowed : State → Label → Prop} {start middle state next : State}

/-- A predicate that each step keeps holds at the end of the path. -/
theorem Reaches.invariant (holds : State → Prop) (reached : machine.Reaches allowed start state)
    (atStart : holds start)
    (kept : ∀ state label next, holds state → allowed state label →
      machine.step state label = some next → holds next) : holds state := by
  induction reached with
  | refl => exact atStart
  | step _ label meets taken ih => exact kept _ _ _ ih meets taken

theorem Reaches.trans (first : machine.Reaches allowed start middle)
    (second : machine.Reaches allowed middle state) : machine.Reaches allowed start state := by
  induction second with
  | refl => exact first
  | step _ label meets taken ih => exact .step ih label meets taken

/-- A weaker condition allows the same path. -/
theorem Reaches.mono {weaker : State → Label → Prop} (reached : machine.Reaches allowed start state)
    (weakens : ∀ before label, allowed before label → weaker before label) :
    machine.Reaches weaker start state := by
  induction reached with
  | refl => exact .refl
  | step _ label meets taken ih => exact .step ih label (weakens _ _ meets) taken

theorem run_append (first second : List Label) :
    machine.run start (first ++ second) =
      (machine.run start first).bind fun middle => machine.run middle second := by
  induction first generalizing start with
  | nil => rfl
  | cons label rest ih => simp only [List.cons_append, run, ih, Option.bind_assoc]

theorem run_singleton (label : Label) : machine.run start [label] = machine.step start label := by
  simp only [run, Option.bind_fun_some]

/-- A completed run is a path when each of its labels meets the condition. -/
theorem run_reaches {labels : List Label} (finished : machine.run start labels = some state)
    (meets : ∀ before, ∀ label ∈ labels, allowed before label) :
    machine.Reaches allowed start state := by
  induction labels generalizing start with
  | nil =>
      rw [run, Option.some.injEq] at finished
      exact finished ▸ .refl
  | cons label rest ih =>
      rw [run, Option.bind_eq_some_iff] at finished
      obtain ⟨middle, taken, finished⟩ := finished
      have first : machine.Reaches allowed start middle :=
        .step .refl label (meets start label (by simp)) taken
      exact first.trans (ih finished fun before label member => meets before label (by simp [member]))

/-- A checked run also tests the condition before each step. -/
def checkedRun (machine : Machine State Label) (allowed : State → Label → Prop)
    [∀ state label, Decidable (allowed state label)] : State → List Label → Option State
  | state, [] => some state
  | state, label :: rest =>
      if allowed state label then
        (machine.step state label).bind fun next => checkedRun machine allowed next rest
      else none

theorem checkedRun_reaches [∀ state label, Decidable (allowed state label)] {labels : List Label}
    (finished : machine.checkedRun allowed start labels = some state) :
    machine.Reaches allowed start state := by
  induction labels generalizing start with
  | nil =>
      rw [checkedRun, Option.some.injEq] at finished
      exact finished ▸ .refl
  | cons label rest ih =>
      rw [checkedRun] at finished
      split at finished
      · rename_i meets
        obtain ⟨middle, taken, finished⟩ := Option.bind_eq_some_iff.mp finished
        have first : machine.Reaches allowed start middle := .step .refl label meets taken
        exact first.trans (ih finished)
      · cases finished

/-- An abstraction carries reachable states when it maps each step to a path. -/
theorem Reachable.refines {Abstract AbstractLabel : Type}
    {abstract : Machine Abstract AbstractLabel} (view : State → Abstract)
    (reached : machine.Reachable state) (atStart : view machine.initial = abstract.initial)
    (simulates : ∀ state label next, machine.Reachable state → machine.step state label = some next →
      abstract.Reaches (fun _ _ => True) (view state) (view next)) :
    abstract.Reachable (view state) := by
  induction reached with
  | refl => exact atStart ▸ .refl
  | step before label _ taken ih => exact ih.trans (simulates _ _ _ before taken)

/-- A path is one of the abstraction when each step is an abstract one or leaves the view. -/
theorem Reaches.simulates {Abstract AbstractLabel : Type} {abstract : Machine Abstract AbstractLabel}
    {permitted : Abstract → AbstractLabel → Prop} (view : State → Abstract)
    (labelView : State → Label → Option AbstractLabel) (reached : machine.Reaches allowed start state)
    (simulates : ∀ state label next, machine.Reaches allowed start state → allowed state label →
      machine.step state label = some next →
        match labelView state label with
        | none => view next = view state
        | some other => permitted (view state) other ∧ abstract.step (view state) other = some (view next)) :
    abstract.Reaches permitted (view start) (view state) := by
  induction reached with
  | refl => exact .refl
  | @step before after reached label meets taken ih =>
      have step := simulates before label after reached meets taken
      cases viewed : labelView before label with
      | none =>
          rw [viewed] at step
          exact step ▸ ih
      | some other =>
          rw [viewed] at step
          exact .step ih other step.1 step.2

section History

variable {History : Type}

/-- The recorded machine adds a history that no step reads. -/
def recorded (machine : Machine State Label) (empty : History)
    (record : State → Label → State → History → History) : Machine (State × History) Label where
  initial := (machine.initial, empty)
  step pair label :=
    (machine.step pair.1 label).map fun next => (next, record pair.1 label next pair.2)

variable {empty : History} {record : State → Label → State → History → History}

/-- A recorded step is a step of the machine with its record. -/
theorem recorded_step_iff {pair after : State × History} {label : Label} :
    (machine.recorded empty record).step pair label = some after ↔
      machine.step pair.1 label = some after.1 ∧
        after.2 = record pair.1 label after.1 pair.2 := by
  constructor
  · intro taken
    obtain ⟨next, step, rfl⟩ := Option.map_eq_some_iff.mp taken
    exact ⟨step, rfl⟩
  · rintro ⟨step, same⟩
    exact Option.map_eq_some_iff.mpr ⟨after.1, step, by rw [← same]⟩

/-- Every path has a record. -/
theorem Reaches.recorded (reached : machine.Reaches allowed start state) (before : History) :
    ∃ after, (machine.recorded empty record).Reaches (fun pair => allowed pair.1) (start, before) (state, after) := by
  induction reached with
  | refl => exact ⟨before, .refl⟩
  | @step last next _ label meets taken ih =>
      obtain ⟨middle, path⟩ := ih
      refine ⟨record last label next middle, .step path label meets ?_⟩
      exact recorded_step_iff.mpr ⟨taken, rfl⟩

/-- Every run has a record. -/
theorem run_recorded {labels : List Label} (finished : machine.run start labels = some state) (before : History) :
    ∃ after, (machine.recorded empty record).run (start, before) labels = some (state, after) := by
  induction labels generalizing start before with
  | nil =>
      cases finished
      exact ⟨before, rfl⟩
  | cons label rest ih =>
      rw [run, Option.bind_eq_some_iff] at finished
      obtain ⟨middle, taken, finished⟩ := finished
      obtain ⟨after, recorded⟩ := ih finished (record start label middle before)
      refine ⟨after, Option.bind_eq_some_iff.mpr ⟨_, recorded_step_iff.mpr ⟨taken, rfl⟩, recorded⟩⟩

/-- A predicate that each step keeps with its record holds at the end of the path. -/
theorem Reaches.recorded_invariant {allowed : State × History → Label → Prop} {start pair : State × History}
    (reached : (machine.recorded empty record).Reaches allowed start pair) (holds : State → History → Prop)
    (atStart : holds start.1 start.2)
    (kept : ∀ state label next history, holds state history → allowed (state, history) label →
      machine.step state label = some next → holds next (record state label next history)) :
    holds pair.1 pair.2 := by
  apply reached.invariant (fun pair => holds pair.1 pair.2) atStart
  intro before label after safe meets taken
  obtain ⟨moved, recorded⟩ := recorded_step_iff.mp taken
  rw [recorded]
  exact kept before.1 label after.1 before.2 safe meets moved

/-- Some reachable state with this record looks like the state. -/
def Mirrored (machine : Machine State Label) (empty : History)
    (record : State → Label → State → History → History) (alike : State → State → Prop) (state : State)
    (history : History) : Prop :=
  ∃ mirror, alike state mirror ∧ (machine.recorded empty record).Reachable (mirror, history)

/-- A mirrored state goes on with a mirror when alike states take the same steps with the same record. -/
theorem Mirrored.step {alike : State → State → Prop} {label : Label} {history : History}
    (mirrored : machine.Mirrored empty record alike state history)
    (follows : ∀ mirror, alike state mirror → ∃ after, machine.step mirror label = some after ∧
      alike next after ∧ record mirror label after history = record state label next history) :
    machine.Mirrored empty record alike next (record state label next history) := by
  obtain ⟨mirror, same, reached⟩ := mirrored
  obtain ⟨after, moved, still, recorded⟩ := follows mirror same
  refine ⟨after, still, .step reached label trivial ?_⟩
  exact recorded_step_iff.mpr ⟨moved, recorded.symm⟩

end History

end Machine

end Transition
