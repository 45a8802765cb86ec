import DesktopCube.A2dp.InStep

namespace DesktopCube.A2dp
open Transition BoundedQueue Program

/-- No channel and no object of the I2S task is live. -/
structure Resources.Released (r : Resources) : Prop where
  txChan : r.txChan.live = false
  semaphore : r.semaphore.live = []
  ringbuf : r.ringbuf.live = []
  task : r.task.live = []

/-- The port has at most one channel because a second installation aborts. -/
structure Paired (c : Connection) : Prop where
  running : c.aborted = false
  semaphore : c.resources.semaphore.live.length ≤ 1
  ringbuf : c.resources.ringbuf.live.length ≤ 1
  task : c.resources.task.live.length ≤ 1
  released : c.ops = [] → c.handled = .disconnected → c.resources.Released

/-- The branch of the state finds the resources that it assumes. -/
def Resources.Fits (r : Resources) : ConnectionState → Prop
  | .connecting => r.txChan.live = false
  | .connected => r.semaphore.live = []
  | .disconnected => r.txChan.live = true
  | .disconnecting => True

/-- The next report to be handled fits the resources. -/
def Matched (c : Connection) : ConnectionLabel → Prop
  | .receive => ∀ state, c.queue.items.head? = some (.connectionState state) → c.resources.Fits state
  | _ => True

/-- The handlers leave no channel half installed and nothing after DISCONNECTED. -/
structure Settled (handled : ConnectionState) (r : Resources) : Prop where
  whole : r.txChan ≠ .disabled
  released : handled = .disconnected → r.txChan.live = false ∧ r.semaphore.live = []

/-- The rest of the handler keeps the pairing. -/
abbrev Pairing : Connection → Prop := Keeping Tidy Settled

/-- A handler whose state fits the resources keeps the pairing. -/
theorem btAvHdlA2dEvt_keeps {handled state : ConnectionState} {r : Resources} (tidy : Tidy [] r)
    (settled : Settled handled r) (fits : r.Fits state) :
    Keeps execute Tidy (Settled state) (btAvHdlA2dEvt state) r := by
  cases state with
  | connecting =>
      apply (btI2sDriverInstall_keeps tidy fits).mono
      · exact fun _ _ always => always.1
      · intro after _ enabled
        exact ⟨by rw [enabled]; decide, nofun⟩
  | connected =>
      apply (btI2sTaskStartUp_keeps tidy fits).mono
      · exact fun _ _ always => always.1
      · intro after always _
        exact ⟨by rw [always.2]; exact settled.whole, nofun⟩
  | disconnected =>
      have enabled : r.txChan = .enabled := by
        have whole := settled.whole
        have live : r.txChan.live = true := fits
        cases channel : r.txChan with
        | enabled => rfl
        | disabled => exact absurd channel whole
        | absent | deleted => rw [channel] at live; cases live
      apply (btI2sDriverUninstall_keeps tidy enabled).mono
      · exact fun _ _ always => always.1
      · rintro after _ ⟨deleted, absent⟩
        refine ⟨by rw [deleted]; decide, fun _ => ⟨by rw [deleted]; rfl, absent⟩⟩
  | disconnecting => exact ⟨tidy, settled.whole, nofun⟩

namespace Pairing

variable {c next : Connection} {label : ConnectionLabel}

theorem start : Pairing Connection.start := by
  refine ⟨rfl, ⟨rfl, rfl, rfl, fun live => absurd rfl live, fun live => absurd rfl live, trivial⟩,
    by decide, fun _ => ⟨rfl, rfl⟩⟩

theorem paired (pairing : Pairing c) : Paired c := by
  have tidy := pairing.keeps.now
  refine ⟨pairing.running, tidy.semaphore.length_le, tidy.ringbuf.length_le, tidy.task.length_le, ?_⟩
  intro idle disconnected
  have settled := pairing.keeps
  rw [idle] at settled
  obtain ⟨channel, semaphore⟩ := settled.2.released disconnected
  have ringbuf := tidy.ringbuf_live semaphore
  exact ⟨channel, semaphore, ringbuf, tidy.task_live ringbuf⟩

theorem step (pairing : Pairing c) (matched : Matched c label)
    (taken : connectionMachine.step c label = some next) : Pairing next := by
  apply Keeping.step pairing taken
  rintro state rfl head tidy settled
  exact btAvHdlA2dEvt_keeps tidy settled (matched state head)

theorem reaches (reached : connectionMachine.Reaches Matched Connection.start c) : Pairing c :=
  reached.invariant Pairing start fun _ _ _ pairing matched taken => Pairing.step pairing matched taken

end Pairing

/-- A session hands the next handler the resources that it assumes. -/
theorem Held.fits {handled state : ConnectionState} {r : Resources} (held : Held handled r)
    (next : follows handled state = true) : r.Fits state := by
  cases state with
  | connecting =>
      cases handled with
      | disconnected => exact held.1
      | connecting | connected | disconnecting => cases next
  | connected =>
      cases handled with
      | connecting => exact held.2
      | disconnected | connected | disconnecting => cases next
  | disconnected =>
      have connected : handled ≠ .disconnected := by rintro rfl; cases next
      rw [Resources.Fits, held.enabled connected]
      rfl
  | disconnecting => trivial

/-- The reports of a session fit when the task receives them. -/
theorem Served.matched {c next : Connection} {label : ConnectionLabel} (served : Served c label)
    (inStep : InStep c) (taken : connectionMachine.step c label = some next) : Matched c label := by
  cases label with
  | report state | other | execute succeeds => trivial
  | receive =>
      rw [Connection.step_receive inStep.running] at taken
      have idle := (Connection.receive_cases taken).1
      have kept := inStep.keeps
      rw [idle] at kept
      intro state head
      have continues := served rfl
      unfold Connection.continues at continues
      cases items : c.queue.items with
      | nil => simp [items] at head
      | cons message rest =>
          rw [items, List.head?_cons, Option.some.injEq] at head
          simp only [items, head] at continues
          exact kept.2.fits continues

theorem matched_of_served {c : Connection} (reached : connectionMachine.Reaches Served Connection.start c) :
    InStep c ∧ connectionMachine.Reaches Matched Connection.start c := by
  induction reached with
  | refl => exact ⟨InStep.start, .refl⟩
  | step _ label served taken ih =>
      exact ⟨ih.1.step served taken, .step ih.2 label (served.matched ih.1 taken) taken⟩

/-- A run in which the queue refuses no report meets the condition of the pairing. -/
theorem matched_of_delivered {c : Connection} (reached : connectionMachine.Reaches Delivered Connection.start c) :
    connectionMachine.Reaches Matched Connection.start c :=
  (matched_of_served (Leads.served_of_delivered reached).1).2

/-- A report that does not fit breaks the pairing within two operations. -/
theorem unpaired_of_misfit {c : Connection} {state : ConnectionState} (running : c.aborted = false)
    (ops : c.ops = btAvHdlA2dEvt state) (misfit : ¬ c.resources.Fits state) :
    ∃ later, connectionMachine.Reaches (fun _ label => label = .execute true) c later ∧ ¬ Paired later := by
  cases state with
  | connecting =>
      have live : c.resources.txChan.live = true := by simpa [Resources.Fits] using misfit
      have taken : c.execute true = some { c with aborted := true } := by
        simp [Connection.execute, ops, btAvHdlA2dEvt, btI2sDriverInstall, execute, live]
      have aborts : connectionMachine.Reaches (fun _ label => label = .execute true) c _ :=
        .step .refl (.execute true) rfl ((Connection.step_execute running true).trans taken)
      exact ⟨_, aborts, fun paired => Bool.noConfusion paired.running⟩
  | disconnected =>
      have off : c.resources.txChan ≠ .enabled := by
        intro enabled
        exact misfit (by rw [Resources.Fits, enabled]; rfl)
      have taken : c.execute true = some { c with aborted := true } := by
        simp [Connection.execute, ops, btAvHdlA2dEvt, btI2sDriverUninstall, execute, off]
      have aborts : connectionMachine.Reaches (fun _ label => label = .execute true) c _ :=
        .step .refl (.execute true) rfl ((Connection.step_execute running true).trans taken)
      exact ⟨_, aborts, fun paired => Bool.noConfusion paired.running⟩
  | connected =>
      have first : c.execute true =
          some { c with ops := [.semaphoreCreate, .ringbufferCreate, .taskCreate] } := by
        simp [Connection.execute, ops, btAvHdlA2dEvt, btI2sTaskStartUp, execute]
      have second : connectionMachine.step
          { c with ops := [.semaphoreCreate, .ringbufferCreate, .taskCreate] } (.execute true) =
          some { c with
            ops := [.ringbufferCreate, .taskCreate]
            resources := { c.resources with semaphore := c.resources.semaphore.create true } } := by
        rw [Connection.step_execute (by exact running)]
        simp [Connection.execute, execute]
      have entered : connectionMachine.Reaches (fun _ label => label = .execute true) c _ :=
        .step .refl (.execute true) rfl ((Connection.step_execute running true).trans first)
      have doubled : connectionMachine.Reaches (fun _ label => label = .execute true) c _ :=
        .step entered (.execute true) rfl second
      refine ⟨_, doubled, fun paired => ?_⟩
      have one : (c.resources.semaphore.create true).live.length ≤ 1 := paired.semaphore
      have old : c.resources.semaphore.live.length ≠ 0 :=
        fun none => misfit (List.length_eq_zero_iff.mp none)
      simp only [Slot.create, if_true, List.length_cons] at one
      omega
  | disconnecting => exact absurd trivial misfit

/-- The pairing holds in every run whose handled reports fit and in no longer run. -/
theorem paired_of_matched {c : Connection}
    (reached : connectionMachine.Reaches Matched Connection.start c) :
    Paired c ∧ ∀ label next, ¬ Matched c label → connectionMachine.step c label = some next →
      ∃ later, connectionMachine.Reaches (fun _ label => label = .execute true) next later ∧
        ¬ Paired later := by
  have pairing := Pairing.reaches reached
  refine ⟨pairing.paired, fun label next unmatched taken => ?_⟩
  cases label with
  | report state | other | execute succeeds => exact absurd trivial unmatched
  | receive =>
      rw [Connection.step_receive pairing.running] at taken
      obtain ⟨_, received⟩ := Connection.receive_cases taken
      simp only [Matched, not_forall] at unmatched
      obtain ⟨state, head, misfit⟩ := unmatched
      rcases received with ⟨received, queue, items, rfl⟩ | ⟨queue, items, rfl⟩
      · rw [items] at head
        cases head
        exact unpaired_of_misfit pairing.running rfl misfit
      · rw [items] at head
        cases head

/-- DISCONNECTED releases the channel and the semaphore after the ring buffer could not be created. -/
theorem paired_of_matched_disconnected : ∃ c, Paired c ∧ c.resources.semaphore.next = 1 ∧
    c.resources.ringbuf.next = 0 ∧ c.resources.Released := by
  let labels : List ConnectionLabel := [.report .connecting, .receive] ++ List.replicate 3 (.execute true) ++
    [.report .connected, .receive, .execute true, .execute true, .execute false, .report .disconnected, .receive] ++
    List.replicate 5 (.execute true)
  obtain ⟨c, finished, idle, handled, semaphore, ringbuf⟩ :
      ∃ c, connectionMachine.checkedRun Delivered Connection.start labels = some c ∧ c.ops = [] ∧
        c.handled = .disconnected ∧ c.resources.semaphore.next = 1 ∧ c.resources.ringbuf.next = 0 :=
    ⟨_, rfl, rfl, rfl, rfl, rfl⟩
  have paired := (paired_of_matched (matched_of_delivered (Machine.checkedRun_reaches finished))).1
  exact ⟨c, paired, semaphore, ringbuf, paired.released idle handled⟩

/-- A refused CONNECTING lets the handled DISCONNECTED abort. -/
theorem not_paired_reachable : ¬ ∀ c, connectionMachine.Reachable c → Paired c := by
  intro paired
  let labels : List ConnectionLabel := List.replicate 10 .other ++
    [.report .connecting, .receive, .report .disconnected] ++ List.replicate 10 .receive ++
    [.execute true]
  obtain ⟨c, finished⟩ : ∃ c, connectionMachine.run Connection.start labels = some c := ⟨_, rfl⟩
  have aborted : c.aborted = true := by
    cases finished
    rfl
  have reached : connectionMachine.Reachable c := Machine.run_reaches finished fun _ _ _ => trivial
  rw [(paired c reached).running] at aborted
  cases aborted

end DesktopCube.A2dp
