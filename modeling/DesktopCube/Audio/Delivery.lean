import DesktopCube.Library.Pipe
import DesktopCube.Audio.Session

namespace DesktopCube.Audio
open Transition RingBuffer

/-- Call numbers identify the packets of a session. -/
structure History where
  issued : List (List UInt8)
  accepted : List (Nat × List UInt8)
  returned : List (Nat × Nat)
  written : List UInt8

def History.empty : History := ⟨[], [], [], []⟩

/-- The number of the call in progress. -/
def History.current (h : History) : Nat := h.issued.length - 1

/-- The history observes calls, accepted sends, results and I2S writes. -/
def Session.record (s : Session) (label : SessionLabel) (next : Session) (h : History) : History :=
  match label with
  | .call data => { h with issued := h.issued ++ [data] }
  | .writeRingbuf => { h with
      accepted := if s.point = .send ∧ next.done = true then h.accepted ++ [(h.current, s.data)]
        else h.accepted
      returned := if next.point = .idle then h.returned ++ [(h.current, next.result)]
        else h.returned }
  | .btI2sTaskHandler _ => { h with
      written := if s.task = .write then h.written ++ s.ringbufI2s.taken else h.written }

def deliveryMachine : Machine (Session × History) SessionLabel :=
  sessionMachine.recorded History.empty Session.record

/-- The bytes that `xRingbufferSend` has accepted, in call order. -/
def History.acceptedBytes (h : History) : List UInt8 := (h.accepted.map Prod.snd).flatten

/-- The session is a queue from the accepted sends to the I2S writes. -/
def pipeView (pair : Session × History) : Pipe UInt8 :=
  ⟨pair.2.acceptedBytes, pair.2.written, pair.1.held ++ pair.1.ringbufI2s.waiting⟩

theorem pipeView_writeRingbuf {s next : Session} (h : History) (taken : s.writeRingbuf = some next) :
    (Pipe.machine UInt8).Reaches (fun _ _ => True) (pipeView (s, h))
      (pipeView (next, s.record .writeRingbuf next h)) := by
  have quiet (notSend : s.point ≠ .send) (ring : next.ringbufI2s = s.ringbufI2s)
      (task : next.task = s.task) :
      pipeView (next, s.record .writeRingbuf next h) = pipeView (s, h) := by
    simp [pipeView, History.acceptedBytes, Session.record, Session.held, notSend, ring, task]
  unfold Session.writeRingbuf at taken
  cases point : s.point with
  | idle => simp [point] at taken
  | testDropping | infoDropping | testPrefetching | infoPrefetching | give =>
      simp only [point] at taken
      split at taken <;> cases taken <;> rw [quiet (by simp [point]) rfl rfl] <;> exact .refl
  | leaveDropping | enterDropping | leavePrefetching | giveFailed =>
      simp only [point] at taken
      cases taken
      rw [quiet (by simp [point]) rfl rfl]
      exact .refl
  | send =>
      simp only [point] at taken
      split at taken
      · rename_i ring sent
        obtain ⟨waiting, same⟩ := Ringbuffer.send_some sent
        cases taken
        refine .step .refl (.send s.data) trivial ?_
        simp [Pipe.machine, Pipe.step, pipeView, History.acceptedBytes, Session.record, Session.held,
          point, waiting, same]
      · cases taken
        have same : pipeView ({ s with done := false, point := .enterDropping },
            s.record .writeRingbuf { s with done := false, point := .enterDropping } h) =
            pipeView (s, h) := by
          simp [pipeView, History.acceptedBytes, Session.record, Session.held]
        rw [same]
        exact .refl

theorem pipeView_btI2sTaskHandler {s next : Session} (h : History) {contiguous : Nat}
    (taken : s.btI2sTaskHandler contiguous = some next) :
    (Pipe.machine UInt8).Reaches (fun _ _ => True) (pipeView (s, h))
      (pipeView (next, s.record (.btI2sTaskHandler contiguous) next h)) := by
  have quiet (notWrite : s.task ≠ .write)
      (bytes : next.held ++ next.ringbufI2s.waiting = s.held ++ s.ringbufI2s.waiting) :
      pipeView (next, s.record (.btI2sTaskHandler contiguous) next h) = pipeView (s, h) := by
    simp [pipeView, History.acceptedBytes, Session.record, notWrite, bytes]
  unfold Session.btI2sTaskHandler at taken
  cases task : s.task with
  | take =>
      simp only [task] at taken
      split at taken <;> cases taken
      rw [quiet (by simp [task]) (by simp [Session.held, task])]
      exact .refl
  | receive =>
      simp only [task] at taken
      split at taken
      · rename_i ring received
        cases taken
        rw [quiet (by simp [task]) (by simp [Session.held, task, (Ringbuffer.receiveUpTo_some received).1])]
        exact .refl
      · cases taken
        rw [quiet (by simp [task]) (by simp [Session.held, task])]
        exact .refl
  | write =>
      simp only [task] at taken
      cases taken
      refine .step .refl (.deliver s.ringbufI2s.taken.length) trivial ?_
      simp [Pipe.machine, Pipe.step, pipeView, History.acceptedBytes, Session.record, Session.held, task]
  | returnItem | underflow =>
      simp only [task] at taken
      cases taken
      rw [quiet (by simp [task]) (by simp [Session.held, task])]
      exact .refl

/-- Every step of the session is a step of the queue or leaves the queue alone. -/
theorem delivery_refines_pipe {pair : Session × History} (reached : deliveryMachine.Reachable pair) :
    (Pipe.machine UInt8).Reachable (pipeView pair) := by
  refine Machine.Reachable.refines pipeView reached rfl ?_
  rintro ⟨s, h⟩ label ⟨next, after⟩ _ taken
  obtain ⟨moved, recorded⟩ := Machine.recorded_step_iff.mp taken
  change after = s.record label next h at recorded
  subst recorded
  cases label with
  | call data =>
      change s.call data = some next at moved
      unfold Session.call at moved
      split at moved <;> cases moved
      exact .refl
  | writeRingbuf => exact pipeView_writeRingbuf h moved
  | btI2sTaskHandler contiguous => exact pipeView_btI2sTaskHandler h moved

/-- A call that has not passed its send holds `done` at `pdFALSE`. -/
def WritePoint.beforeResult : WritePoint → Bool
  | .testDropping | .infoDropping | .leaveDropping | .send | .enterDropping => true
  | _ => false

/-- The producer keeps its packet and decides the result only at its send. -/
theorem writeRingbuf_locals {s next : Session}
    (early : s.point.beforeResult = true → s.done = false) (taken : s.writeRingbuf = some next) :
    s.point ≠ .idle ∧ next.data = s.data ∧ (next.point.beforeResult = true → next.done = false) ∧
      (s.point ≠ .send → next.done = s.done) ∧
      (next.point = .idle → s.point ≠ .send ∧ next.result = if s.done then s.data.length else 0) := by
  unfold Session.writeRingbuf at taken
  cases point : s.point with
  | idle => simp [point] at taken
  | testDropping | infoDropping =>
      have notDone : s.done = false := early (by rw [point]; rfl)
      simp only [point] at taken
      split at taken <;> cases taken <;> simp [Session.finish, notDone]
  | leaveDropping | enterDropping =>
      have notDone : s.done = false := early (by rw [point]; rfl)
      simp only [point] at taken
      cases taken
      simp [Session.finish, notDone]
  | send =>
      simp only [point] at taken
      split at taken <;> cases taken <;> simp [WritePoint.beforeResult]
  | testPrefetching | infoPrefetching | give =>
      simp only [point] at taken
      split at taken <;> cases taken <;>
        simp [Session.returnDone, Session.finish, WritePoint.beforeResult]
  | leavePrefetching | giveFailed =>
      simp only [point] at taken
      cases taken
      simp [Session.returnDone, Session.finish, WritePoint.beforeResult]

/-- The ledger ties each result to the send of the same call. -/
structure Ledger (s : Session) (h : History) : Prop where
  early : s.point.beforeResult = true → s.done = false
  current : s.point ≠ .idle → h.issued[h.current]? = some s.data
  whole : ∀ packet ∈ h.accepted, h.issued[packet.1]? = some packet.2
  ordered : h.accepted.Pairwise fun first second => first.1 < second.1
  fresh : s.point ≠ .idle → s.done = false → ∀ packet ∈ h.accepted, packet.1 < h.current
  stored : s.point ≠ .idle → s.done = true → (h.current, s.data) ∈ h.accepted
  results : ∀ call ∈ h.returned, ∀ data, h.issued[call.1]? = some data →
    call.2 = if (call.1, data) ∈ h.accepted then data.length else 0
  complete : h.returned.map Prod.fst =
    List.range (if s.point = .idle then h.issued.length else h.current)

namespace Ledger

variable {s next : Session} {h : History}

theorem start : Ledger btI2sTaskStartUp History.empty := by
  constructor <;> simp [btI2sTaskStartUp, History.empty, WritePoint.beforeResult]

theorem accepted_lt (ledger : Ledger s h) (packet : Nat × List UInt8) (member : packet ∈ h.accepted) :
    packet.1 < h.issued.length :=
  (List.getElem?_eq_some_iff.mp (ledger.whole packet member)).1

theorem current_lt (ledger : Ledger s h) (busy : s.point ≠ .idle) : h.current < h.issued.length :=
  (List.getElem?_eq_some_iff.mp (ledger.current busy)).1

/-- A completed call has a smaller number than the call in progress. -/
theorem returned_lt (ledger : Ledger s h) (call : Nat × Nat) (member : call ∈ h.returned) :
    call.1 < if s.point = .idle then h.issued.length else h.current := by
  have listed : call.1 ∈ h.returned.map Prod.fst := List.mem_map_of_mem member
  rw [ledger.complete] at listed
  exact List.mem_range.mp listed

theorem call {data : List UInt8} (ledger : Ledger s h) (taken : s.call data = some next) :
    Ledger next (s.record (.call data) next h) := by
  unfold Session.call at taken
  split at taken
  · rename_i idle
    cases taken
    have count : (s.record (.call data) { s with point := .testDropping, data := data, done := false }
        h).current = h.issued.length := by
      simp [Session.record, History.current]
    refine ⟨fun _ => rfl, fun _ => ?_, ?_, ledger.ordered, fun _ _ => ?_, nofun, ?_, ?_⟩
    · rw [count]
      exact List.getElem?_concat_length
    · intro packet member
      exact (List.getElem?_append_left (ledger.accepted_lt packet member)).trans
        (ledger.whole packet member)
    · rw [count]
      exact ledger.accepted_lt
    · intro call member data' found
      have old : call.1 < h.issued.length := by
        simpa [idle] using ledger.returned_lt call member
      exact ledger.results call member data' ((List.getElem?_append_left old).symm.trans found)
    · have complete := ledger.complete
      rw [if_pos idle] at complete
      rw [count]
      exact complete
  · cases taken

/-- An accepted send adds its packet under the number of its call. -/
theorem accepts (ledger : Ledger s h) (point : s.point = .send) (done : next.done = true)
    (data : next.data = s.data) (busy : next.point ≠ .idle) (late : next.point.beforeResult = false) :
    Ledger next { h with accepted := h.accepted ++ [(h.current, s.data)] } := by
  have notIdle : s.point ≠ .idle := by simp [point]
  have fresh := ledger.fresh notIdle (ledger.early (by rw [point]; rfl))
  refine ⟨?_, ?_, ?_, ?_, ?_, ?_, ?_, ?_⟩
  · intro early
    simp [late] at early
  · intro _
    rw [data]
    exact ledger.current notIdle
  · intro packet member
    rcases List.mem_append.mp member with old | new
    · exact ledger.whole packet old
    · rw [List.mem_singleton.mp new]
      exact ledger.current notIdle
  · refine List.pairwise_append.mpr ⟨ledger.ordered, List.pairwise_singleton _ _, ?_⟩
    intro packet member last new
    rw [List.mem_singleton.mp new]
    exact fresh packet member
  · intro _ notDone
    simp [done] at notDone
  · intro _ _
    rw [data]
    exact List.mem_append_right _ (List.mem_singleton.mpr rfl)
  · intro call member data' found
    have earlier : call.1 < h.current := by
      simpa [notIdle] using ledger.returned_lt call member
    have same : (call.1, data') ∈ h.accepted ++ [(h.current, s.data)] ↔ (call.1, data') ∈ h.accepted := by
      simp only [List.mem_append, List.mem_singleton, Prod.mk.injEq, or_iff_left_iff_imp, and_imp]
      intro equal
      omega
    simp only [same]
    exact ledger.results call member data' found
  · have complete := ledger.complete
    rw [if_neg notIdle] at complete
    rw [if_neg busy]
    exact complete

/-- A returning call writes the result that its send has decided. -/
theorem returns (ledger : Ledger s h) (busy : s.point ≠ .idle) (idle : next.point = .idle)
    (result : next.result = if s.done then s.data.length else 0) :
    Ledger next { h with returned := h.returned ++ [(h.current, next.result)] } := by
  have current := ledger.current busy
  have last := ledger.current_lt busy
  refine ⟨?_, ?_, ledger.whole, ledger.ordered, ?_, ?_, ?_, ?_⟩
  · intro early
    simp [idle, WritePoint.beforeResult] at early
  · exact fun notIdle => absurd idle notIdle
  · exact fun notIdle => absurd idle notIdle
  · exact fun notIdle => absurd idle notIdle
  · intro call member data found
    rcases List.mem_append.mp member with old | new
    · exact ledger.results call old data found
    · rw [List.mem_singleton.mp new] at found ⊢
      obtain rfl : s.data = data := Option.some.inj (current.symm.trans found)
      change next.result = _
      rw [result]
      cases done : s.done with
      | true => simp [ledger.stored busy done]
      | false =>
          have absent : (h.current, s.data) ∉ h.accepted :=
            fun member => Nat.lt_irrefl _ (ledger.fresh busy done _ member)
          simp [absent]
  · have count : h.issued.length = h.current + 1 := by
      unfold History.current at last ⊢
      omega
    have before := ledger.complete
    rw [if_neg busy] at before
    simp only [List.map_append, before, List.map_cons, List.map_nil, if_pos idle, count,
      List.range_succ]

/-- The other producer steps keep the ledger. -/
theorem continues (ledger : Ledger s h) (busy : s.point ≠ .idle) (notIdle : next.point ≠ .idle)
    (data : next.data = s.data) (done : next.done = s.done)
    (early : next.point.beforeResult = true → next.done = false) : Ledger next h where
  early := early
  current _ := data ▸ ledger.current busy
  whole := ledger.whole
  ordered := ledger.ordered
  fresh _ notDone := ledger.fresh busy (done ▸ notDone)
  stored _ isDone := data ▸ ledger.stored busy (done ▸ isDone)
  results := ledger.results
  complete := by
    rw [ledger.complete, if_neg busy, if_neg notIdle]

theorem writeRingbuf (ledger : Ledger s h) (taken : s.writeRingbuf = some next) :
    Ledger next (s.record .writeRingbuf next h) := by
  obtain ⟨busy, data, early, done, result⟩ := writeRingbuf_locals ledger.early taken
  by_cases accepted : s.point = .send ∧ next.done = true
  · have notIdle : next.point ≠ .idle := fun idle => (result idle).1 accepted.1
    have late : next.point.beforeResult = false :=
      Bool.eq_false_iff.mpr fun before => by simp [early before] at accepted
    have kept := ledger.accepts accepted.1 accepted.2 data notIdle late
    simpa only [Session.record, if_pos accepted, if_neg notIdle] using kept
  · have same : next.done = s.done := by
      by_cases send : s.point = .send
      · have notDone : s.done = false := ledger.early (by rw [send]; rfl)
        rw [notDone, Bool.eq_false_iff]
        exact fun isDone => accepted ⟨send, isDone⟩
      · exact done send
    by_cases idle : next.point = .idle
    · have kept := ledger.returns busy idle (result idle).2
      simpa only [Session.record, if_neg accepted, if_pos idle] using kept
    · have kept := ledger.continues busy idle data same early
      simpa only [Session.record, if_neg accepted, if_neg idle] using kept

/-- The consumer does not touch the locals of the producer. -/
theorem btI2sTaskHandler {contiguous : Nat} (ledger : Ledger s h)
    (taken : s.btI2sTaskHandler contiguous = some next) :
    Ledger next (s.record (.btI2sTaskHandler contiguous) next h) := by
  obtain ⟨point, data, done⟩ : next.point = s.point ∧ next.data = s.data ∧ next.done = s.done := by
    unfold Session.btI2sTaskHandler at taken
    cases task : s.task with
    | take | receive =>
        simp only [task] at taken
        split at taken <;> cases taken <;> exact ⟨rfl, rfl, rfl⟩
    | write | returnItem | underflow =>
        simp only [task] at taken
        cases taken
        exact ⟨rfl, rfl, rfl⟩
  obtain ⟨early, current, whole, ordered, fresh, stored, results, complete⟩ := ledger
  rw [← point] at early current fresh stored complete
  rw [← data] at current stored
  rw [← done] at early fresh stored
  exact ⟨early, current, whole, ordered, fresh, stored, results, complete⟩

theorem reachable {pair : Session × History} (reached : deliveryMachine.Reachable pair) :
    Ledger pair.1 pair.2 := by
  apply reached.recorded_invariant Ledger start
  intro s label next h ledger _ taken
  cases label with
  | call data => exact ledger.call taken
  | writeRingbuf => exact ledger.writeRingbuf taken
  | btI2sTaskHandler contiguous => exact ledger.btI2sTaskHandler taken

end Ledger

/-- Accepted bytes are neither lost, repeated nor reordered, and each result tells the acceptance. -/
theorem accepted_bytes_delivered {s : Session} {h : History} (reached : deliveryMachine.Reachable (s, h)) :
    h.acceptedBytes = h.written ++ s.held ++ s.ringbufI2s.waiting ∧
      (h.accepted.Pairwise fun first second => first.1 < second.1) ∧
      (∀ packet ∈ h.accepted, h.issued[packet.1]? = some packet.2) ∧
      h.returned.map Prod.fst =
        List.range (if s.point = .idle then h.issued.length else h.issued.length - 1) ∧
      ∀ call ∈ h.returned, ∀ data, h.issued[call.1]? = some data → data ≠ [] →
        (call.2 = data.length ↔ (call.1, data) ∈ h.accepted) ∧
        (call.2 ≠ data.length → call.2 = 0) := by
  have ledger := Ledger.reachable reached
  have conserved : h.acceptedBytes = h.written ++ (s.held ++ s.ringbufI2s.waiting) :=
    Pipe.sent_eq (delivery_refines_pipe reached)
  refine ⟨conserved.trans (List.append_assoc _ _ _).symm, ledger.ordered, ledger.whole,
    ledger.complete, ?_⟩
  intro call member data found notEmpty
  have positive : 0 < data.length := List.length_pos_of_ne_nil notEmpty
  have result := ledger.results call member data found
  by_cases accepted : (call.1, data) ∈ h.accepted
  · rw [if_pos accepted] at result
    exact ⟨iff_of_true result accepted, fun differs => absurd result differs⟩
  · rw [if_neg accepted] at result
    exact ⟨iff_of_false (by omega) accepted, fun _ => result⟩

/-- The consumer has written one item of the packet, holds the next one and leaves the rest. -/
theorem accepted_bytes_delivered_items : ∃ (packet : List UInt8) (s : Session) (h : History),
    h.returned = [(0, ringbufPrefetchWaterLevel)] ∧ h.written.length = itemSizeUpto ∧
      s.held.length = itemSizeUpto ∧ s.ringbufI2s.waiting.length = 17600 ∧
      h.acceptedBytes = h.written ++ s.held ++ s.ringbufI2s.waiting ∧ (0, packet) ∈ h.accepted := by
  obtain ⟨packet, size⟩ : ∃ packet : List UInt8, packet.length = ringbufPrefetchWaterLevel :=
    ⟨List.replicate _ 0, List.length_replicate⟩
  have item : itemSizeUpto = 1440 := rfl
  have level : ringbufPrefetchWaterLevel = 20480 := rfl
  have fits : packet.length ≤ ringbufHighestWaterLevel := by
    rw [size]
    decide
  have sent : (Ringbuffer.empty : Ringbuffer UInt8 ringbufHighestWaterLevel).send packet =
      some ⟨packet, [], by simpa using fits⟩ := dif_pos (by simpa using fits)
  obtain ⟨one, first, oneTaken, oneWaiting⟩ := Ringbuffer.receiveUpTo_limit
    (show (⟨packet, [], by simpa using fits⟩ : Ringbuffer UInt8 ringbufHighestWaterLevel).taken = [] from rfl)
    (show 0 < itemSizeUpto by decide) (show itemSizeUpto ≤ packet.length by omega)
  change one.taken = packet.take itemSizeUpto at oneTaken
  change one.waiting = packet.drop itemSizeUpto at oneWaiting
  obtain ⟨two, second, twoTaken, twoWaiting⟩ := Ringbuffer.receiveUpTo_limit
    (show one.returnItem.taken = [] from rfl) (show 0 < itemSizeUpto by decide)
    (show itemSizeUpto ≤ one.waiting.length by rw [oneWaiting, List.length_drop]; omega)
  have finished : deliveryMachine.run deliveryMachine.initial
      (.call packet :: List.replicate 6 .writeRingbuf ++ List.replicate 5 (.btI2sTaskHandler itemSizeUpto)) =
      some ({ btI2sTaskStartUp with
          ringbufferMode := .processing
          ringbufI2s := two
          data := packet
          done := true
          result := packet.length
          task := .write },
        ⟨[packet], [(0, packet)], [(0, packet.length)], one.taken⟩) := by
    simp [Machine.run, deliveryMachine, Machine.recorded, sessionMachine, Session.step, Session.call,
      Session.writeRingbuf, Session.btI2sTaskHandler, Session.record, btI2sTaskStartUp, Session.returnDone,
      Session.finish, List.replicate, History.empty, History.current, Ringbuffer.itemsWaiting, sent, size, first,
      second]
  obtain ⟨bytes, _, _, _, results⟩ := accepted_bytes_delivered
    (Machine.run_reaches finished fun _ _ _ => trivial)
  have whole : packet.length ≠ 0 := by omega
  refine ⟨packet, _, _, by rw [size], ?_, ?_, ?_, bytes, (results (0, packet.length) (by simp) packet rfl
    (List.ne_nil_of_length_pos (Nat.pos_of_ne_zero whole))).1.mp rfl⟩
  · show one.taken.length = itemSizeUpto
    rw [oneTaken, List.length_take]
    omega
  · show two.taken.length = itemSizeUpto
    rw [twoTaken, List.length_take, Ringbuffer.returnItem_waiting, oneWaiting, List.length_drop]
    omega
  · show two.waiting.length = 17600
    rw [twoWaiting, List.length_drop, Ringbuffer.returnItem_waiting, oneWaiting, List.length_drop]
    omega

end DesktopCube.Audio
