namespace Program

/-- An operation goes on with the next one, leaves the program or aborts. -/
inductive Outcome (State : Type) where
  | next (state : State)
  | leave (state : State)
  | abort
  deriving DecidableEq, Repr

variable {State Op Choice : Type}

/-- The first predicate holds before each operation and the second one at the end. -/
def Keeps (execute : State → Op → Choice → Outcome State) (always : List Op → State → Prop)
    (post : State → Prop) : List Op → State → Prop
  | [], state => always [] state ∧ post state
  | op :: rest, state => always (op :: rest) state ∧ ∀ choice,
      match execute state op choice with
      | .next after => Keeps execute always post rest after
      | .leave after => always [] after ∧ post after
      | .abort => False

variable {execute : State → Op → Choice → Outcome State} {always weaker : List Op → State → Prop}
  {post after : State → Prop}

theorem Keeps.now {ops : List Op} {state : State} (keeps : Keeps execute always post ops state) :
    always ops state := by
  cases ops with
  | nil => exact keeps.1
  | cons op rest => exact keeps.1

theorem Keeps.next {op : Op} {rest : List Op} {state result : State} {choice : Choice}
    (keeps : Keeps execute always post (op :: rest) state)
    (executed : execute state op choice = .next result) : Keeps execute always post rest result := by
  have kept := keeps.2 choice
  rw [executed] at kept
  exact kept

theorem Keeps.leave {op : Op} {rest : List Op} {state result : State} {choice : Choice}
    (keeps : Keeps execute always post (op :: rest) state)
    (executed : execute state op choice = .leave result) : Keeps execute always post [] result := by
  have kept := keeps.2 choice
  rw [executed] at kept
  exact kept

theorem Keeps.not_abort {op : Op} {rest : List Op} {state : State} {choice : Choice}
    (keeps : Keeps execute always post (op :: rest) state) : execute state op choice ≠ .abort := by
  intro executed
  have kept := keeps.2 choice
  rw [executed] at kept
  exact kept

/-- Both predicates can be weakened. -/
theorem Keeps.mono {ops : List Op} {state : State} (keeps : Keeps execute always post ops state)
    (throughout : ∀ ops state, always ops state → weaker ops state)
    (finally_ : ∀ state, always [] state → post state → after state) :
    Keeps execute weaker after ops state := by
  induction ops generalizing state with
  | nil => exact ⟨throughout _ _ keeps.1, finally_ _ keeps.1 keeps.2⟩
  | cons op rest ih =>
      refine ⟨throughout _ _ keeps.1, fun choice => ?_⟩
      cases executed : execute state op choice with
      | next result => exact ih (keeps.next executed)
      | leave result =>
          have kept := keeps.leave executed
          exact ⟨throughout _ _ kept.1, finally_ _ kept.1 kept.2⟩
      | abort => exact absurd executed keeps.not_abort

/-- A program that keeps two pairs of predicates keeps both. -/
theorem Keeps.and {other : List Op → State → Prop} {also : State → Prop} {ops : List Op} {state : State}
    (first : Keeps execute always post ops state) (second : Keeps execute other also ops state) :
    Keeps execute (fun ops state => always ops state ∧ other ops state) (fun state => post state ∧ also state)
      ops state := by
  induction ops generalizing state with
  | nil => exact ⟨⟨first.1, second.1⟩, first.2, second.2⟩
  | cons op rest ih =>
      refine ⟨⟨first.1, second.1⟩, fun choice => ?_⟩
      cases executed : execute state op choice with
      | next result => exact ih (first.next executed) (second.next executed)
      | leave result =>
          have kept := first.leave executed
          have keptToo := second.leave executed
          exact ⟨⟨kept.1, keptToo.1⟩, kept.2, keptToo.2⟩
      | abort => exact absurd executed first.not_abort

/-- A larger state takes the state that an operation leaves. -/
def Outcome.map {Other : Type} (put : State → Other) : Outcome State → Outcome Other
  | .next state => .next (put state)
  | .leave state => .leave (put state)
  | .abort => .abort

section Lift

variable {Big BigOp : Type} (bigExecute : Big → BigOp → Choice → Outcome Big) (view : Big → State)
  (inject : Op → BigOp) (put : Op → Choice → Big → State → Big) (project : List BigOp → List Op)
  (tracked : List Op → Big → Prop)

/-- A program keeps its predicates inside a larger state that tracks its operations. -/
theorem Keeps.lift {ops : List Op} {big : Big} (keeps : Keeps execute always post ops (view big))
    (lifts : ∀ big op choice,
      bigExecute big (inject op) choice = (execute (view big) op choice).map (put op choice big))
    (viewed : ∀ op choice big state, view (put op choice big state) = state)
    (projects : ∀ ops, project (ops.map inject) = ops)
    (goesOn : ∀ op rest big choice state, execute (view big) op choice = .next state →
      tracked (op :: rest) big → tracked rest (put op choice big state))
    (leaves : ∀ op rest big choice state, execute (view big) op choice = .leave state →
      tracked (op :: rest) big → tracked [] (put op choice big state))
    (atStart : tracked ops big) :
    Keeps bigExecute (fun ops big => always (project ops) (view big))
      (fun big => post (view big) ∧ tracked [] big) (ops.map inject) big := by
  induction ops generalizing big with
  | nil =>
      refine ⟨?_, keeps.2, atStart⟩
      show always (project (List.map inject [])) (view big)
      rw [projects]
      exact keeps.1
  | cons op rest ih =>
      refine ⟨?_, fun choice => ?_⟩
      · show always (project (List.map inject (op :: rest))) (view big)
        rw [projects]
        exact keeps.1
      · rw [lifts]
        cases executed : execute (view big) op choice with
        | next state =>
            apply ih
            · rw [viewed]
              exact keeps.next executed
            · exact goesOn op rest big choice state executed atStart
        | leave state =>
            have kept := keeps.leave executed
            show always (project (List.map inject [])) _ ∧ _ ∧ _
            rw [projects, viewed]
            exact ⟨kept.1, kept.2, leaves op rest big choice state executed atStart⟩
        | abort => exact absurd executed keeps.not_abort

end Lift

end Program
