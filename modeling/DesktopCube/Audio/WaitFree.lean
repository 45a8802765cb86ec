import DesktopCube.Audio.Flow

namespace DesktopCube.Audio
open Transition RingBuffer

def SessionLabel.isProducer : SessionLabel → Bool
  | .writeRingbuf => true
  | .call _ | .btI2sTaskHandler _ => false

/-- The longest way from a point of `write_ringbuf` to its return. -/
def WritePoint.rest : WritePoint → Nat
  | .idle | .giveFailed => 0
  | .leaveDropping | .give => 1
  | .infoDropping | .leavePrefetching => 2
  | .infoPrefetching => 3
  | .testPrefetching => 4
  | .enterDropping => 5
  | .send => 6
  | .testDropping => 7

/-- The call with this number and packet is in progress or has returned. -/
structure Calling (number : Nat) (data : List UInt8) (pair : Session × History) : Prop where
  reached : deliveryMachine.Reachable pair
  issued : pair.2.issued[number]? = some data
  open_ : number ∉ pair.2.returned.map Prod.fst → pair.1.point ≠ .idle ∧ pair.2.current = number

namespace Calling

variable {number : Nat} {data : List UInt8} {pair after : Session × History} {label : SessionLabel}

/-- A step of the producer comes closer to the return or is the return. -/
theorem writeRingbuf_rest {s next : Session} (gate : PrefetchGate s) (taken : s.writeRingbuf = some next) :
    next.point = .idle ∨ next.point.rest < s.point.rest := by
  unfold Session.writeRingbuf at taken
  cases point : s.point with
  | idle => simp [point] at taken
  | testDropping | infoDropping | send | testPrefetching | infoPrefetching =>
      simp only [point] at taken
      split at taken <;> cases taken <;> simp [Session.returnDone, Session.finish, WritePoint.rest]
  | leaveDropping | enterDropping | leavePrefetching =>
      simp only [point] at taken
      cases taken
      simp [Session.finish, WritePoint.rest]
  | give =>
      have parked := gate.opening (by rw [point]; rfl)
      simp only [point, parked.2, Bool.false_eq_true, if_false] at taken
      cases taken
      exact .inl rfl
  | giveFailed => exact absurd point gate.neverFails

/-- Every point inside the call has a next access. -/
theorem writeRingbuf_isSome {s : Session} (busy : s.point ≠ .idle) : s.writeRingbuf.isSome := by
  unfold Session.writeRingbuf
  cases point : s.point with
  | idle => exact absurd point busy
  | testDropping | infoDropping | send | testPrefetching | infoPrefetching | give =>
      simp only
      split <;> rfl
  | leaveDropping | enterDropping | leavePrefetching | giveFailed => rfl

/-- A returned call stays in the history. -/
theorem returned_grows (s next : Session) (label : SessionLabel) (h : History) :
    h.returned <+: (s.record label next h).returned ∧ h.issued <+: (s.record label next h).issued := by
  cases label with
  | call data => exact ⟨List.prefix_rfl, List.prefix_append _ _⟩
  | btI2sTaskHandler contiguous => exact ⟨List.prefix_rfl, List.prefix_rfl⟩
  | writeRingbuf =>
      refine ⟨?_, List.prefix_rfl⟩
      simp only [Session.record]
      split
      · exact List.prefix_append _ _
      · exact List.prefix_rfl

theorem stays (returned : number ∈ pair.2.returned.map Prod.fst)
    (taken : deliveryMachine.step pair label = some after) : number ∈ after.2.returned.map Prod.fst := by
  rw [(Machine.recorded_step_iff.mp taken).2]
  exact ((returned_grows pair.1 after.1 label pair.2).1.map Prod.fst).subset returned

/-- While the call is in progress only the producer moves it. -/
theorem step_cases (calling : Calling number data pair) (inside : number ∉ pair.2.returned.map Prod.fst)
    (taken : deliveryMachine.step pair label = some after) :
    number ∈ after.2.returned.map Prod.fst ∨
      after.1.point ≠ .idle ∧ after.2.current = number ∧
        after.1.point.rest + label.isProducer.toNat ≤ pair.1.point.rest := by
  obtain ⟨busy, current⟩ := calling.open_ inside
  obtain ⟨moved, recorded⟩ := Machine.recorded_step_iff.mp taken
  cases label with
  | call data =>
      change pair.1.call data = some after.1 at moved
      rw [Session.call, if_neg busy] at moved
      cases moved
  | btI2sTaskHandler contiguous =>
      have point := Session.btI2sTaskHandler_point moved
      refine .inr ⟨point ▸ busy, ?_, Nat.le_of_eq (congrArg WritePoint.rest point)⟩
      rw [recorded]
      exact current
  | writeRingbuf =>
      by_cases idle : after.1.point = .idle
      · apply Or.inl
        rw [recorded]
        simp only [Session.record, if_pos idle, List.map_append, List.map_cons, List.map_nil, List.mem_append,
          List.mem_singleton, current, or_true]
      · refine .inr ⟨idle, ?_, (writeRingbuf_rest (.delivered calling.reached) moved).resolve_left idle⟩
        rw [recorded]
        exact current

theorem kept (calling : Calling number data pair) (taken : deliveryMachine.step pair label = some after) :
    Calling number data after := by
  have recorded := (Machine.recorded_step_iff.mp taken).2
  refine ⟨.step calling.reached label trivial taken, ?_, ?_⟩
  · obtain ⟨inside, same⟩ := List.getElem?_eq_some_iff.mp calling.issued
    obtain ⟨later, grown⟩ := (returned_grows pair.1 after.1 label pair.2).2
    rw [recorded, ← grown, List.getElem?_append_left inside]
    exact calling.issued
  · intro inside
    have before : number ∉ pair.2.returned.map Prod.fst := fun returned => inside (stays returned taken)
    have moved := (calling.step_cases before taken).resolve_left inside
    exact ⟨moved.1, moved.2.1⟩

theorem advances (number : Nat) (data : List UInt8) :
    deliveryMachine.Advances (Calling number data) (fun pair => number ∈ pair.2.returned.map Prod.fst)
      SessionLabel.isProducer fun pair => pair.1.point.rest where
  kept _ _ _ calling taken := calling.kept taken
  stays _ _ _ _ returned taken := stays returned taken
  moves pair _ _ calling taken := by
    by_cases returned : number ∈ pair.2.returned.map Prod.fst
    · exact .inl (stays returned taken)
    · exact (calling.step_cases returned taken).imp_right fun moved => moved.2.2

end Calling

/-- A call of `write_ringbuf` returns within seven accesses of its own, whatever the consumer does meanwhile. -/
theorem call_returns_within {s later : Session} {h after : History} {labels : List SessionLabel}
    (reached : deliveryMachine.Reachable (s, h)) (busy : s.point ≠ .idle)
    (finished : deliveryMachine.run (s, h) labels = some (later, after)) :
    s.point.rest ≤ 7 ∧
      (s.point.rest ≤ labels.countP SessionLabel.isProducer →
        ∃ result, (h.current, result) ∈ after.returned ∧ (result = 0 ∨ result = s.data.length)) ∧
      (h.current ∈ after.returned.map Prod.fst ∨
        ∃ next, deliveryMachine.step (later, after) .writeRingbuf = some next) := by
  have calling : Calling h.current s.data (s, h) :=
    ⟨reached, (Ledger.reachable reached).current busy, fun _ => ⟨busy, rfl⟩⟩
  have atEnd := (Calling.advances h.current s.data).holds_run calling finished
  have small : s.point.rest ≤ 7 := by cases s.point <;> decide
  refine ⟨small, ?_, ?_⟩
  · intro enough
    have returned : h.current ∈ after.returned.map Prod.fst := by
      by_contra inside
      have used := ((Calling.advances h.current s.data).run calling finished).resolve_left inside
      have open_ := (atEnd.open_ inside).1
      have left : 0 < later.point.rest := by
        cases point : later.point with
        | idle => exact absurd point open_
        | giveFailed => exact absurd point (PrefetchGate.delivered atEnd.reached).neverFails
        | testDropping | infoDropping | leaveDropping | send | enterDropping | testPrefetching
          | infoPrefetching | leavePrefetching | give => decide
      simp only at used
      omega
    obtain ⟨call, member, same⟩ := List.mem_map.mp returned
    have listed : (h.current, call.2) ∈ after.returned := by
      rw [← same]
      exact member
    have decided : call.2 = if (h.current, s.data) ∈ after.accepted then s.data.length else 0 :=
      (Ledger.reachable atEnd.reached).results _ listed s.data atEnd.issued
    refine ⟨call.2, listed, ?_⟩
    by_cases accepted : (h.current, s.data) ∈ after.accepted
    · rw [if_pos accepted] at decided
      exact .inr decided
    · rw [if_neg accepted] at decided
      exact .inl decided
  · by_cases returned : h.current ∈ after.returned.map Prod.fst
    · exact .inl returned
    · apply Or.inr
      obtain ⟨next, moved⟩ := Option.isSome_iff_exists.mp (Calling.writeRingbuf_isSome (atEnd.open_ returned).1)
      exact ⟨(next, later.record .writeRingbuf next after), Machine.recorded_step_iff.mpr ⟨moved, rfl⟩⟩

/-- The first call finds room and returns before the second one is halfway. -/
theorem call_returns_within_short : ∃ (after : History) (result : Nat), (0, result) ∈ after.returned ∧
    (result = 0 ∨ result = 3) := by
  have reached : deliveryMachine.Reachable _ := .step .refl (.call [1, 2, 3]) trivial rfl
  have within := call_returns_within reached WritePoint.noConfusion
    (show deliveryMachine.run _ (List.replicate 4 .writeRingbuf ++ .call [4] :: List.replicate 3 .writeRingbuf) =
      some _ from rfl)
  exact ⟨_, within.2.1 (by decide)⟩

end DesktopCube.Audio
