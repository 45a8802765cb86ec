import DesktopCube.Http.Overlap

namespace DesktopCube.Http
open Transition CMemory Interleaving

/-- The buffer holds the first bytes of the body and then zeros. -/
def ownResponse (body : Nat → UInt8) (received : Nat) : UserData :=
  Vector.ofFn fun index => if index < min received maxHttpOutputBuffer then body index else 0

/-- Each finished request finds its own response in its buffer. -/
def Isolated (bodies : Request → Nat → UInt8) (labels : List (Request × Arrival)) : Prop :=
  ∀ request before after, labels = before ++ (request, .finish) :: after →
    ∃ w, (overlapMachine bodies).run Overlap.start (before ++ [(request, .finish)]) = some w ∧
      w.userData request = ownResponse (bodies request) (w.received request)

/-- A chunk lands right behind the bytes of its own request or changes no byte. -/
def Progress.Meets (p : Progress) (request : Request) (size : Nat) : Prop :=
  p.outputLen = min (p.received request) maxHttpOutputBuffer ∨ size = 0 ∧ p.outputLen ≠ 0

/-- Every chunk of a request that finishes lands behind its own bytes. -/
def Aligned (labels : List (Request × Arrival)) : Prop :=
  ∀ request size before after, labels = before ++ (request, .data size) :: after →
    (request, .finish) ∈ after → (progress before).Meets request size

theorem ownResponse_getElem (body : Nat → UInt8) (received index : Nat)
    (inside : index < maxHttpOutputBuffer + 1) :
    (ownResponse body received)[index] =
      if index < min received maxHttpOutputBuffer then body index else 0 := by
  simp [ownResponse]

theorem ownResponse_zero (body : Nat → UInt8) : ownResponse body 0 = Block.zeros := by
  apply Vector.ext
  intro index inside
  rw [ownResponse_getElem, Nat.zero_min, if_neg (Nat.not_lt_zero index), Block.zeros_getElem]

/-- An aligned chunk extends the own bytes of a request. -/
theorem stored_ownResponse (body : Nat → UInt8) (outputLen received size : Nat)
    (meets : outputLen = min received maxHttpOutputBuffer ∨ size = 0 ∧ outputLen ≠ 0) :
    stored outputLen (chunk body received size) (ownResponse body received) =
      ownResponse body (received + size) := by
  apply Vector.ext
  intro index inside
  rw [stored_getElem, chunk_length, chunk_getD, ownResponse_getElem, ownResponse_getElem]
  rcases meets with behind | ⟨rfl, later⟩
  · by_cases copied : outputLen ≤ index ∧
        index < outputLen + min size (maxHttpOutputBuffer - outputLen)
    · have position : received + (index - outputLen) = index := by omega
      rw [if_pos copied, if_pos (by omega), if_pos (by omega), position]
    · rw [if_neg copied]
      by_cases fresh : outputLen = 0 ∧ index < maxHttpOutputBuffer
      · rw [if_pos fresh, if_neg (by omega)]
      · rw [if_neg fresh]
        by_cases old : index < min received maxHttpOutputBuffer
        · rw [if_pos old, if_pos (by omega)]
        · rw [if_neg old, if_neg (by omega)]
  · rw [if_neg (by omega), if_neg (by omega), Nat.add_zero]

/-- The chunks of one request land behind its own bytes. -/
def AlignedFor (request : Request) (labels : List (Request × Arrival)) : Prop :=
  ∀ size before after, labels = before ++ (request, .data size) :: after →
    (progress before).Meets request size

/-- An aligned request has its own response in its buffer. -/
def OwnsBuffer (bodies : Request → Nat → UInt8) (request : Request)
    (labels : List (Request × Arrival)) (userData : Request → UserData) : Prop :=
  AlignedFor request labels →
    userData request = ownResponse (bodies request) ((progress labels).received request)

theorem OwnsBuffer.step {bodies : Request → Nat → UInt8} {request : Request}
    (before : List (Request × Arrival)) (userData : Request → UserData) (other : Request)
    (arrival : Arrival) (owns : OwnsBuffer bodies request before userData) :
    OwnsBuffer bodies request (before ++ [(other, arrival)]) (Function.update userData other
      (arrival.written (bodies other) (progress before).outputLen
        ((progress before).received other) (userData other))) := by
  intro aligned
  have earlier : AlignedFor request before := by
    intro size first rest split
    exact aligned size first (rest ++ [(other, arrival)]) (by rw [split]; simp)
  rw [progress_append, advance_received]
  by_cases same : request = other
  · subst same
    rw [Function.update_self, Function.update_self, owns earlier]
    cases arrival with
    | data size => exact stored_ownResponse _ _ _ _ (aligned size before [] rfl)
    | finish | disconnected | connected | headerSent | header => rfl
  · rw [Function.update_of_ne same, Function.update_of_ne same]
    exact owns earlier

/-- The buffer of an aligned request holds its own response after every run. -/
theorem ownResponse_of_aligned (bodies : Request → Nat → UInt8) (request : Request)
    (labels : List (Request × Arrival)) (aligned : AlignedFor request labels) :
    ∃ w, (overlapMachine bodies).run Overlap.start labels = some w ∧
      w.userData request = ownResponse (bodies request) (w.received request) := by
  obtain ⟨w, finished, follows, owns⟩ := run_keeps bodies (OwnsBuffer bodies request)
    (fun _ => (ownResponse_zero _).symm) OwnsBuffer.step labels
  refine ⟨w, finished, ?_⟩
  rw [owns aligned, follows.received]

/-- An aligned schedule isolates the requests. -/
theorem isolated_of_aligned {labels : List (Request × Arrival)} (aligned : Aligned labels)
    (bodies : Request → Nat → UInt8) : Isolated bodies labels := by
  intro request before after split
  apply ownResponse_of_aligned
  intro size first rest finished
  have follows : (request, Arrival.finish) ∈ rest := by
    rcases split_last finished with ⟨_, _, same⟩ | ⟨first, rfl, _⟩
    · cases same
    · exact List.mem_append_right _ List.mem_cons_self
  apply aligned request size first (rest ++ after)
  · rw [split, List.append_cons, finished, List.append_assoc, List.cons_append]
  · exact List.mem_append_left after follows

/-- A body with one byte that is not zero shows where this byte is lost. -/
def spike (position : Nat) : Nat → UInt8 := fun index => if index = position then 1 else 0

/-- No chunk that copies another byte to the position sets it. -/
theorem stored_spike (position outputLen received size : Nat) (block : UserData)
    (inside : position < maxHttpOutputBuffer)
    (other : outputLen ≤ position → received + (position - outputLen) ≠ position ∨ size ≤ position - outputLen)
    (clear : block[position] = 0 ∨ outputLen = 0 ∨
      outputLen ≤ position ∧ position < outputLen + min size (maxHttpOutputBuffer - outputLen)) :
    (stored outputLen (chunk (spike position) received size) block)[position] = 0 := by
  rw [stored_getElem, chunk_length, chunk_getD]
  by_cases copied : outputLen ≤ position ∧
      position < outputLen + min size (maxHttpOutputBuffer - outputLen)
  · rw [if_pos copied, if_pos (by omega), spike, if_neg]
    have inChunk : ¬ size ≤ position - outputLen := by omega
    exact (other copied.1).resolve_right inChunk
  · rw [if_neg copied]
    by_cases fresh : outputLen = 0
    · rw [if_pos ⟨fresh, inside⟩]
    · rw [if_neg (by omega)]
      simpa [fresh, copied] using clear

/-- A misplaced chunk overwrites this byte of its request or writes past it. -/
def Progress.lostPosition (p : Progress) (request : Request) : Nat :=
  if p.outputLen = 0 then 0
  else if p.received request < maxHttpOutputBuffer then p.received request
  else p.outputLen

/-- A misplaced chunk comes after a reset, at another offset or behind a full buffer. -/
theorem Progress.lostPosition_cases {p : Progress} {request : Request} {size : Nat}
    (misplaced : ¬ p.Meets request size) :
    p.outputLen = 0 ∧ 0 < p.received request ∧ p.lostPosition request = 0 ∨
      0 < size ∧ p.outputLen ≠ p.received request ∧ p.received request < maxHttpOutputBuffer ∧
        p.outputLen ≠ 0 ∧ p.lostPosition request = p.received request ∨
      0 < size ∧ maxHttpOutputBuffer ≤ p.received request ∧ p.outputLen < maxHttpOutputBuffer ∧
        p.outputLen ≠ 0 ∧ p.lostPosition request = p.outputLen := by
  have bounded := p.bounded
  rw [Progress.Meets, not_or, not_and, not_not] at misplaced
  by_cases fresh : p.outputLen = 0
  · left
    rw [Progress.lostPosition, if_pos fresh]
    omega
  · right
    by_cases short : p.received request < maxHttpOutputBuffer
    · left
      rw [Progress.lostPosition, if_neg fresh, if_pos short]
      omega
    · right
      rw [Progress.lostPosition, if_neg fresh, if_neg short]
      omega

theorem Progress.lostPosition_inside {p : Progress} {request : Request} {size : Nat}
    (misplaced : ¬ p.Meets request size) : p.lostPosition request < maxHttpOutputBuffer := by
  have positive : 0 < maxHttpOutputBuffer := by decide
  rcases lostPosition_cases misplaced with reset | shifted | full <;> omega

/-- The lost byte belongs to the part of the body that has arrived. -/
theorem Progress.lostPosition_received {p : Progress} {request : Request} {size : Nat}
    (misplaced : ¬ p.Meets request size) : p.lostPosition request < p.received request + size := by
  rcases lostPosition_cases misplaced with reset | shifted | full <;> omega

/-- The misplaced chunk leaves a zero where its body has the spike. -/
theorem stored_misplaced {p : Progress} {request : Request} {size position : Nat} {block : UserData}
    (misplaced : ¬ p.Meets request size) (lost : p.lostPosition request = position)
    (inside : position < maxHttpOutputBuffer)
    (unset : p.received request ≤ position → block[position] = 0) :
    (stored p.outputLen (chunk (spike position) (p.received request) size) block)[position] = 0 := by
  have cases := Progress.lostPosition_cases misplaced
  rw [lost] at cases
  apply stored_spike _ _ _ _ _ inside
  · omega
  · rcases cases with reset | shifted | full
    · exact .inr (.inl reset.1)
    · exact .inl (unset (by omega))
    · exact .inr (.inr (by omega))

/-- No other chunk of the body sets the lost byte. -/
theorem written_spike {position received outputLen : Nat} {block : UserData} (arrival : Arrival)
    (inside : position < maxHttpOutputBuffer) (clear : block[position] = 0)
    (apart : position < received ∨ received + arrival.size ≤ position) :
    (arrival.written (spike position) outputLen received block)[position] = 0 := by
  cases arrival with
  | data size =>
      rw [Arrival.size] at apart
      apply stored_spike _ _ _ _ _ inside
      · omega
      · exact .inl clear
  | finish | disconnected | connected | headerSent | header => exact clear

/-- The byte stays zero before its part of the body arrives and after the misplaced chunk. -/
structure Loses (request : Request) (size position : Nat) (inside : position < maxHttpOutputBuffer)
    (before labels : List (Request × Arrival)) (userData : Request → UserData) : Prop where
  unset : (progress labels).received request ≤ position → (userData request)[position] = 0
  lost : ∀ rest, labels = before ++ (request, .data size) :: rest →
    position < (progress labels).received request ∧ (userData request)[position] = 0

theorem Loses.step {request : Request} {size position : Nat} {inside : position < maxHttpOutputBuffer}
    {before : List (Request × Arrival)} (misplaced : ¬ (progress before).Meets request size)
    (position_eq : (progress before).lostPosition request = position)
    (labels : List (Request × Arrival)) (userData : Request → UserData) (other : Request)
    (arrival : Arrival) (loses : Loses request size position inside before labels userData) :
    Loses request size position inside before (labels ++ [(other, arrival)])
      (Function.update userData other (arrival.written (spike position) (progress labels).outputLen
        ((progress labels).received other) (userData other))) := by
  by_cases same : request = other
  · subst same
    have received : (progress (labels ++ [(request, arrival)])).received request =
        (progress labels).received request + arrival.size := by
      rw [progress_append, advance_received, Function.update_self]
    constructor
    · intro early
      rw [Function.update_self]
      exact written_spike arrival inside (loses.unset (by omega)) (.inr (by omega))
    · intro rest split
      rw [received, Function.update_self]
      rcases split_last split with ⟨_, rfl, label⟩ | ⟨first, _, earlier⟩
      · cases label
        exact ⟨position_eq ▸ Progress.lostPosition_received misplaced,
          stored_misplaced misplaced position_eq inside loses.unset⟩
      · obtain ⟨passed, zero⟩ := loses.lost first earlier
        exact ⟨by omega, written_spike arrival inside zero (.inl passed)⟩
  · have received : (progress (labels ++ [(other, arrival)])).received request =
        (progress labels).received request := by
      rw [progress_append, advance_received, Function.update_of_ne same]
    constructor
    · intro early
      rw [Function.update_of_ne same]
      exact loses.unset (by omega)
    · intro rest split
      rw [received, Function.update_of_ne same]
      rcases split_last split with ⟨_, _, label⟩ | ⟨first, _, earlier⟩
      · cases label
        exact absurd rfl same
      · exact loses.lost first earlier

/-- A misplaced chunk loses a byte of some body for good. -/
theorem lost_of_misplaced {request : Request} {size : Nat} {before : List (Request × Arrival)}
    (misplaced : ¬ (progress before).Meets request size) (rest : List (Request × Arrival)) :
    ∃ bodies w, (overlapMachine bodies).run Overlap.start (before ++ (request, .data size) :: rest) =
      some w ∧ w.userData request ≠ ownResponse (bodies request) (w.received request) := by
  have inside := Progress.lostPosition_inside misplaced
  obtain ⟨w, finished, follows, loses⟩ := run_keeps (fun _ => spike _)
    (Loses request size _ inside before) ⟨fun _ => Block.zeros_getElem _ _, fun rest split => by simp at split⟩
    (Loses.step misplaced rfl) (before ++ (request, .data size) :: rest)
  obtain ⟨received, zero⟩ := loses.lost rest rfl
  refine ⟨_, w, finished, fun same => ?_⟩
  rw [same, ownResponse_getElem, follows.received, if_pos (by omega), spike, if_pos rfl] at zero
  exact absurd zero (by decide)

/-- A request that finishes with its own response for all bodies was aligned. -/
theorem aligned_of_isolated {labels : List (Request × Arrival)}
    (isolated : ∀ bodies, Isolated bodies labels) : Aligned labels := by
  intro request size before after split finishes
  by_contra misplaced
  obtain ⟨middle, rest, rfl⟩ := List.append_of_mem finishes
  obtain ⟨bodies, w, finished, lost⟩ := lost_of_misplaced misplaced (middle ++ [(request, .finish)])
  obtain ⟨own, completed, response⟩ := isolated bodies request
    (before ++ (request, .data size) :: middle) rest (by rw [split]; simp)
  rw [List.append_assoc, List.cons_append, finished] at completed
  cases completed
  exact lost response

/-- The buffers isolate the requests exactly when every chunk lands behind its own bytes. -/
theorem isolated_iff_aligned (labels : List (Request × Arrival)) :
    (∀ bodies, Isolated bodies labels) ↔ Aligned labels :=
  ⟨aligned_of_isolated, isolated_of_aligned⟩

/-- The events of one request that completes. -/
def exchange (headers : Nat) (chunks : List Nat) : List Arrival :=
  [.connected, .headerSent] ++ List.replicate headers .header ++ chunks.map .data ++
    [.finish, .disconnected]

/-- The second request resets the offset between two chunks of the first one. -/
theorem not_isolated : ¬ ∀ bodies labels, (∀ request, ∃ headers chunks,
    part labels request = exchange headers chunks) → Isolated bodies labels := by
  intro isolated
  let labels : List (Request × Arrival) := [(.time, .connected), (.weather, .connected),
    (.time, .headerSent), (.weather, .headerSent), (.time, .data 1), (.weather, .data 1),
    (.time, .finish), (.time, .disconnected), (.weather, .finish), (.weather, .disconnected)]
  have schedule : ∀ request, ∃ headers chunks, part labels request = exchange headers chunks :=
    fun request => ⟨0, [1], by cases request <;> rfl⟩
  have aligned : Aligned labels := aligned_of_isolated fun bodies => isolated bodies labels schedule
  have meets := aligned .weather 1 (labels.take 5) (labels.drop 6) rfl (by decide)
  rcases meets with same | empty
  · exact absurd same (by decide)
  · exact absurd empty.1 (by decide)

end DesktopCube.Http
