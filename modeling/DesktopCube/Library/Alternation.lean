import Mathlib.Data.List.Basic

namespace Alternation

/-- Reports lead from one state to another when each of them turns the state. -/
def Leads : Bool → List Bool → Bool → Prop
  | state, [], last => state = last
  | state, report :: rest, last => report = !state ∧ Leads report rest last

namespace Leads

variable {state last : Bool} {reports : List Bool}

theorem append (leads : Leads state reports last) : Leads state (reports ++ [!last]) (!last) := by
  induction reports generalizing state with
  | nil =>
      obtain rfl : state = last := leads
      exact ⟨rfl, rfl⟩
  | cons report rest ih => exact ⟨leads.1, ih leads.2⟩

/-- The first report turns the state, so a turn back is needed before any other report. -/
theorem nil_of_turn (leads : Leads state reports last) (absent : (!state) ∉ reports) : reports = [] := by
  cases reports with
  | nil => rfl
  | cons report rest =>
      rw [← leads.1] at absent
      exact absurd List.mem_cons_self absent

end Leads

end Alternation
