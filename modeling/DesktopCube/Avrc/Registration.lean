import DesktopCube.Library.Alternation
import DesktopCube.Library.Machine

namespace DesktopCube.Avrc
open Transition Alternation

def appRcCtTlGetCaps : UInt8 := 0
def appRcCtTlGetMetaData : UInt8 := 1
def appRcCtTlRnTrackChange : UInt8 := 2
def appRcCtTlRnPlaybackChange : UInt8 := 3
def appRcCtTlRnPlayPosChange : UInt8 := 4

def rnPlayStatusChange : UInt8 := 1
def rnTrackChange : UInt8 := 2
def rnPlayPosChanged : UInt8 := 5

/-- The attributes are the title, the artist, the album and the genre. -/
def attrMask : UInt8 := 0x1 ||| 0x2 ||| 0x4 ||| 0x20

/-- The commands that the controller sends. -/
inductive Command where
  | getRnCapabilities (label : UInt8)
  | metadata (label attrMask : UInt8)
  | registerNotification (label eventId : UInt8) (parameter : UInt32)
  deriving DecidableEq, Repr

/-- The events of the controller with the data that the handler uses. -/
inductive CtEvent where
  | connectionState (connected : Bool)
  | passthroughRsp
  | metadataRsp
  | changeNotify (eventId : UInt8)
  | remoteFeatures
  | getRnCapabilitiesRsp (bits : UInt16)
  | other (event : UInt16)
  deriving DecidableEq, Repr

section Handler

-- The test of `esp_avrc_rn_evt_bit_mask_operation`.
variable (test : UInt16 → UInt8 → Bool)

/-- A notification is registered if the peer supports it. -/
def registerIfSupported (label eventId : UInt8) (parameter : UInt32) (peerRnCap : UInt16) : List Command :=
  if test peerRnCap eventId then [.registerNotification label eventId parameter] else []

def btAvNewTrack (peerRnCap : UInt16) : List Command :=
  .metadata appRcCtTlGetMetaData attrMask ::
    registerIfSupported test appRcCtTlRnTrackChange rnTrackChange 0 peerRnCap

def btAvPlaybackChanged (peerRnCap : UInt16) : List Command :=
  registerIfSupported test appRcCtTlRnPlaybackChange rnPlayStatusChange 0 peerRnCap

def btAvPlayPosChanged (peerRnCap : UInt16) : List Command :=
  registerIfSupported test appRcCtTlRnPlayPosChange rnPlayPosChanged 10 peerRnCap

def btAvNotifyEvtHandler (eventId : UInt8) (peerRnCap : UInt16) : List Command :=
  if eventId = rnTrackChange then btAvNewTrack test peerRnCap
  else if eventId = rnPlayStatusChange then btAvPlaybackChanged test peerRnCap
  else if eventId = rnPlayPosChanged then btAvPlayPosChanged test peerRnCap
  else []

/-- The handler returns the new capability record and the commands that it sends. -/
def btAvHdlAvrcCtEvt (peerRnCap : UInt16) (event : CtEvent) : UInt16 × List Command :=
  match event with
  | .connectionState true => (peerRnCap, [.getRnCapabilities appRcCtTlGetCaps])
  | .connectionState false => (0, [])
  | .changeNotify eventId => (peerRnCap, btAvNotifyEvtHandler test eventId peerRnCap)
  | .getRnCapabilitiesRsp bits =>
      (bits, btAvNewTrack test bits ++ btAvPlaybackChanged test bits ++ btAvPlayPosChanged test bits)
  | .passthroughRsp | .metadataRsp | .remoteFeatures | .other _ => (peerRnCap, [])

end Handler

/-- A register command with the capabilities that the connection had answered when it was sent. -/
structure Registration where
  eventId : UInt8
  capabilities : Option UInt16

/-- The controller, the reports that wait for it and the peer. -/
structure Link where
  reported : Bool
  pending : List CtEvent
  peerRnCap : UInt16
  connected : Bool
  unanswered : Nat
  answered : Option UInt16
  registered : UInt8 → Nat
  sent : List Registration

def Link.start : Link := ⟨false, [], 0, false, 0, none, fun _ => 0, []⟩

namespace Command

/-- The event that a command registers. -/
def eventId : Command → Option UInt8
  | registerNotification _ eventId _ => some eventId
  | getRnCapabilities _ | metadata _ _ => none

def asksCapabilities : Command → Bool
  | getRnCapabilities _ => true
  | metadata _ _ | registerNotification _ _ _ => false

end Command

namespace CtEvent

def connection : CtEvent → Option Bool
  | connectionState connected => some connected
  | passthroughRsp | metadataRsp | changeNotify _ | remoteFeatures | getRnCapabilitiesRsp _ | other _ => none

def isResponse : CtEvent → Bool
  | getRnCapabilitiesRsp _ => true
  | connectionState _ | passthroughRsp | metadataRsp | changeNotify _ | remoteFeatures | other _ => false

end CtEvent

namespace Link

/-- The peer answers within the connection and notifies only while a registration is outstanding. -/
def mayReport (link : Link) (event : CtEvent) : Bool :=
  match event with
  | .connectionState connected => connected == !link.reported
  | .changeNotify eventId => link.pending.count (.changeNotify eventId) < link.registered eventId
  | .getRnCapabilitiesRsp _ => 0 < link.unanswered && !link.pending.contains (.connectionState false)
  | .passthroughRsp | .metadataRsp | .remoteFeatures | .other _ => true

def report (link : Link) (event : CtEvent) : Link :=
  { link with
    reported := event.connection.getD link.reported
    unanswered := if event.isResponse then link.unanswered - 1 else link.unanswered
    pending := link.pending ++ [event] }

/-- The connection and its registrations follow the handled events. -/
def observe (link : Link) (event : CtEvent) : Link :=
  match event with
  | .connectionState true => { link with connected := true }
  | .connectionState false =>
      { link with connected := false, unanswered := 0, answered := none, registered := fun _ => 0 }
  | .changeNotify eventId =>
      { link with registered := fun id => if id = eventId then link.registered id - 1 else link.registered id }
  | .getRnCapabilitiesRsp bits => { link with answered := some bits }
  | .passthroughRsp | .metadataRsp | .remoteFeatures | .other _ => link

/-- The peer receives the commands. -/
def send (link : Link) (commands : List Command) : Link :=
  { link with
    unanswered := link.unanswered + commands.countP Command.asksCapabilities
    registered := fun id => link.registered id + (commands.filterMap Command.eventId).count id
    sent := link.sent ++ (commands.filterMap Command.eventId).map fun id => ⟨id, link.answered⟩ }

/-- The controller handles the first report. -/
def handle (test : UInt16 → UInt8 → Bool) (link : Link) (event : CtEvent) (rest : List CtEvent) : Link :=
  let (peerRnCap, commands) := btAvHdlAvrcCtEvt test link.peerRnCap event
  ({ link with pending := rest, peerRnCap := peerRnCap }.observe event).send commands

end Link

inductive LinkLabel where
  | report (event : CtEvent)
  | handle

def Link.step (test : UInt16 → UInt8 → Bool) (link : Link) (label : LinkLabel) : Option Link :=
  match label with
  | .report event => if link.mayReport event then some (link.report event) else none
  | .handle =>
      match link.pending with
      | event :: rest => some (link.handle test event rest)
      | [] => none

def linkMachine (test : UInt16 → UInt8 → Bool) : Machine Link LinkLabel := ⟨Link.start, Link.step test⟩

/-- The controller registers the notifications of these events. -/
def wanted (test : UInt16 → UInt8 → Bool) (bits : UInt16) (eventId : UInt8) : Bool :=
  (eventId == rnTrackChange || eventId == rnPlayStatusChange || eventId == rnPlayPosChanged) && test bits eventId

section Commands

variable {test : UInt16 → UInt8 → Bool}

theorem registerIfSupported_events (label eventId : UInt8) (parameter : UInt32) (peerRnCap : UInt16) :
    (registerIfSupported test label eventId parameter peerRnCap).filterMap Command.eventId =
      if test peerRnCap eventId then [eventId] else [] := by
  unfold registerIfSupported
  split
  · rfl
  · rfl

theorem btAvNewTrack_events (peerRnCap : UInt16) :
    (btAvNewTrack test peerRnCap).filterMap Command.eventId =
      if test peerRnCap rnTrackChange then [rnTrackChange] else [] := by
  rw [btAvNewTrack, List.filterMap_cons_none rfl, registerIfSupported_events]

theorem btAvPlaybackChanged_events (peerRnCap : UInt16) :
    (btAvPlaybackChanged test peerRnCap).filterMap Command.eventId =
      if test peerRnCap rnPlayStatusChange then [rnPlayStatusChange] else [] :=
  registerIfSupported_events _ _ _ _

theorem btAvPlayPosChanged_events (peerRnCap : UInt16) :
    (btAvPlayPosChanged test peerRnCap).filterMap Command.eventId =
      if test peerRnCap rnPlayPosChanged then [rnPlayPosChanged] else [] :=
  registerIfSupported_events _ _ _ _

/-- A notification renews its own registration. -/
theorem btAvNotifyEvtHandler_events (eventId : UInt8) (peerRnCap : UInt16) :
    (btAvNotifyEvtHandler test eventId peerRnCap).filterMap Command.eventId =
      if wanted test peerRnCap eventId then [eventId] else [] := by
  unfold btAvNotifyEvtHandler
  split
  · rename_i track
    rw [track, btAvNewTrack_events]
    rfl
  · split
    · rename_i status
      rw [status, btAvPlaybackChanged_events]
      rfl
    · split
      · rename_i position
        rw [position, btAvPlayPosChanged_events]
        rfl
      · rename_i track status position
        simp [wanted, track, status, position]

theorem count_supported (bits : UInt16) (registered eventId : UInt8) :
    (if test bits registered then [registered] else []).count eventId =
      (eventId == registered && test bits eventId).toNat := by
  by_cases same : eventId = registered
  · subst same
    cases supported : test bits eventId <;> simp
  · have absent : eventId ∉ (if test bits registered then [registered] else []) := by
      split
      · simpa using same
      · exact List.not_mem_nil
    simp [List.count_eq_zero_of_not_mem absent, beq_false_of_ne same]

/-- The three events are different, so each wanted one is counted once. -/
theorem count_wanted (bits : UInt16) (eventId : UInt8) :
    (eventId == rnTrackChange && test bits eventId).toNat +
        (eventId == rnPlayStatusChange && test bits eventId).toNat +
        (eventId == rnPlayPosChanged && test bits eventId).toNat =
      (wanted test bits eventId).toNat := by
  unfold wanted
  cases test bits eventId with
  | false => simp only [Bool.and_false, Bool.toNat_false]
  | true =>
      by_cases track : eventId = rnTrackChange
      · subst track
        decide
      · by_cases status : eventId = rnPlayStatusChange
        · subst status
          decide
        · simp [beq_false_of_ne track, beq_false_of_ne status]

/-- The capabilities response registers each wanted notification once. -/
theorem response_events (peerRnCap bits : UInt16) (eventId : UInt8) :
    ((btAvHdlAvrcCtEvt test peerRnCap (.getRnCapabilitiesRsp bits)).2.filterMap Command.eventId).count eventId =
      (wanted test bits eventId).toNat := by
  simp only [btAvHdlAvrcCtEvt, List.filterMap_append, List.count_append, btAvNewTrack_events,
    btAvPlaybackChanged_events, btAvPlayPosChanged_events, count_supported]
  exact count_wanted bits eventId

theorem registerIfSupported_asks (label eventId : UInt8) (parameter : UInt32) (peerRnCap : UInt16) :
    (registerIfSupported test label eventId parameter peerRnCap).countP Command.asksCapabilities = 0 := by
  unfold registerIfSupported
  split
  · rfl
  · rfl

theorem btAvNewTrack_asks (peerRnCap : UInt16) :
    (btAvNewTrack test peerRnCap).countP Command.asksCapabilities = 0 :=
  registerIfSupported_asks _ _ _ _

/-- Only a new connection asks for the capabilities. -/
theorem btAvNotifyEvtHandler_asks (eventId : UInt8) (peerRnCap : UInt16) :
    (btAvNotifyEvtHandler test eventId peerRnCap).countP Command.asksCapabilities = 0 := by
  unfold btAvNotifyEvtHandler
  repeat' split
  · exact btAvNewTrack_asks peerRnCap
  · exact registerIfSupported_asks _ _ _ _
  · exact registerIfSupported_asks _ _ _ _
  · rfl

theorem response_asks (peerRnCap bits : UInt16) :
    (btAvHdlAvrcCtEvt test peerRnCap (.getRnCapabilitiesRsp bits)).2.countP Command.asksCapabilities = 0 := by
  simp only [btAvHdlAvrcCtEvt, List.countP_append, btAvNewTrack_asks, btAvPlaybackChanged, btAvPlayPosChanged,
    registerIfSupported_asks]

/-- Every command registers an event that the new capability record supports. -/
theorem events_supported (peerRnCap : UInt16) (event : CtEvent) :
    ∀ eventId ∈ (btAvHdlAvrcCtEvt test peerRnCap event).2.filterMap Command.eventId,
      test (btAvHdlAvrcCtEvt test peerRnCap event).1 eventId := by
  intro eventId member
  cases event with
  | connectionState connected => cases connected <;> exact absurd member List.not_mem_nil
  | changeNotify notified =>
      simp only [btAvHdlAvrcCtEvt, btAvNotifyEvtHandler_events] at member
      split at member
      · rename_i wanted
        rw [List.mem_singleton.mp member]
        exact (Bool.and_eq_true_iff.mp wanted).2
      · exact absurd member List.not_mem_nil
  | getRnCapabilitiesRsp bits =>
      have listed := List.count_pos_iff.mpr member
      rw [response_events] at listed
      have wanted : wanted test bits eventId = true :=
        Bool.toNat_eq_one.mp (Nat.le_antisymm (Bool.toNat_le _) listed)
      exact (Bool.and_eq_true_iff.mp wanted).2
  | passthroughRsp | metadataRsp | remoteFeatures | other => exact absurd member List.not_mem_nil

end Commands

namespace Link

variable {test : UInt16 → UInt8 → Bool} (link : Link) (event : CtEvent) (rest : List CtEvent)

@[simp] theorem observe_sent : (link.observe event).sent = link.sent := by
  cases event with
  | connectionState connected => cases connected <;> rfl
  | passthroughRsp | metadataRsp | changeNotify | remoteFeatures | getRnCapabilitiesRsp | other => rfl

@[simp] theorem observe_peerRnCap : (link.observe event).peerRnCap = link.peerRnCap := by
  cases event with
  | connectionState connected => cases connected <;> rfl
  | passthroughRsp | metadataRsp | changeNotify | remoteFeatures | getRnCapabilitiesRsp | other => rfl

theorem handle_peerRnCap :
    (link.handle test event rest).peerRnCap = (btAvHdlAvrcCtEvt test link.peerRnCap event).1 :=
  observe_peerRnCap _ event

@[simp] theorem send_nil : link.send [] = link := by
  simp [send]

end Link

/-- No response waits behind a report of the connection. -/
def InOrder (first later : CtEvent) : Prop :=
  match first, later with
  | .connectionState _, .getRnCapabilitiesRsp _ => False
  | _, _ => True

/-- The answers that the connection still brings or has brought. -/
def Link.answers (link : Link) : Nat :=
  link.unanswered + link.pending.countP CtEvent.isResponse + link.answered.isSome.toNat

/-- The capability record is the answer of the connection and each wanted event is registered once. -/
structure Kept (test : UInt16 → UInt8 → Bool) (link : Link) : Prop where
  leads : Leads link.connected (link.pending.filterMap CtEvent.connection) link.reported
  answers : link.answers ≤ link.connected.toNat
  inOrder : link.pending.Pairwise InOrder
  record : link.peerRnCap = link.answered.getD 0
  registered : ∀ eventId, link.registered eventId = (wanted test link.peerRnCap eventId).toNat
  sent : ∀ entry ∈ link.sent, ∃ bits, entry.capabilities = some bits ∧ test bits entry.eventId

namespace Kept

variable {test : UInt16 → UInt8 → Bool} {link : Link} {event : CtEvent} {rest : List CtEvent}

/-- A connected link without a waiting disconnection has no connection report to handle. -/
theorem no_connection (kept : Kept test link) (connected : link.connected = true)
    (absent : .connectionState false ∉ link.pending) (state : Bool) : .connectionState state ∉ link.pending := by
  have turns : (!link.connected) ∉ link.pending.filterMap CtEvent.connection := by
    rw [connected]
    intro member
    obtain ⟨event, waits, same⟩ := List.mem_filterMap.mp member
    cases event <;> cases same
    exact absent waits
  have nothing := kept.leads.nil_of_turn turns
  intro waits
  have member : state ∈ link.pending.filterMap CtEvent.connection := List.mem_filterMap.mpr ⟨_, waits, rfl⟩
  rw [nothing] at member
  exact absurd member List.not_mem_nil

/-- A waiting response is the only answer of its connection. -/
theorem response_waits {bits : UInt16} (kept : Kept test link) (waits : .getRnCapabilitiesRsp bits ∈ link.pending) :
    link.connected = true ∧ link.unanswered = 0 ∧ link.pending.countP CtEvent.isResponse = 1 ∧
      link.answered = none := by
  have positive : 0 < link.pending.countP CtEvent.isResponse := List.countP_pos_iff.mpr ⟨_, waits, rfl⟩
  have answers := kept.answers
  have connected := Bool.toNat_le link.connected
  unfold Link.answers at answers
  refine ⟨?_, by omega, by omega, ?_⟩
  · apply Bool.toNat_eq_one.mp
    omega
  · apply Option.not_isSome_iff_eq_none.mp
    intro answered
    rw [answered, Bool.toNat_true] at answers
    omega

/-- The reports behind the handled one keep their order. -/
theorem rest_inOrder (kept : Kept test link) (pending : link.pending = event :: rest) :
    (∀ later ∈ rest, InOrder event later) ∧ rest.Pairwise InOrder := by
  have inOrder := kept.inOrder
  rw [pending] at inOrder
  exact List.pairwise_cons.mp inOrder

/-- The other events send no command. -/
theorem handle_other (kept : Kept test link) (pending : link.pending = event :: rest)
    (same : link.handle test event rest = { link with pending := rest })
    (connection : event.connection = none) (response : event.isResponse = false) :
    Kept test (link.handle test event rest) := by
  have leads := kept.leads
  rw [pending, List.filterMap_cons_none connection] at leads
  have answers := kept.answers
  rw [Link.answers, pending, List.countP_cons_of_neg (by simp [response])] at answers
  rw [same]
  exact ⟨leads, answers, (kept.rest_inOrder pending).2, kept.record, kept.registered, kept.sent⟩

/-- An allowed report keeps the order of the responses. -/
theorem inOrder_report (kept : Kept test link) (may : link.mayReport event = true) :
    ∀ first ∈ link.pending, InOrder first event := by
  intro first waits
  cases event with
  | connectionState | passthroughRsp | metadataRsp | changeNotify | remoteFeatures | other => cases first <;> trivial
  | getRnCapabilitiesRsp bits =>
      cases first with
      | connectionState state =>
          simp only [Link.mayReport, Bool.and_eq_true, decide_eq_true_eq, Bool.not_eq_true',
            List.contains_eq_mem, decide_eq_false_iff_not] at may
          have answers := kept.answers
          have connected : link.connected = true := by
            apply Bool.toNat_eq_one.mp
            have bound := Bool.toNat_le link.connected
            unfold Link.answers at answers
            omega
          exact absurd waits (kept.no_connection connected may.2 state)
      | passthroughRsp | metadataRsp | changeNotify | remoteFeatures | getRnCapabilitiesRsp | other => trivial

/-- A report leaves the handled events and their registrations alone. -/
theorem report (kept : Kept test link) (may : link.mayReport event = true) : Kept test (link.report event) where
  leads := by
    show Leads link.connected ((link.pending ++ [event]).filterMap CtEvent.connection)
      (event.connection.getD link.reported)
    rw [List.filterMap_append]
    cases event with
    | connectionState connected =>
        obtain rfl : connected = !link.reported := beq_iff_eq.mp may
        exact kept.leads.append
    | passthroughRsp | metadataRsp | changeNotify | remoteFeatures | getRnCapabilitiesRsp | other =>
        simpa only [List.filterMap_cons, List.filterMap_nil, CtEvent.connection, List.append_nil,
          Option.getD_none] using kept.leads
  answers := by
    have answers := kept.answers
    unfold Link.answers at answers ⊢
    cases event with
    | getRnCapabilitiesRsp bits =>
        simp only [Link.mayReport, Bool.and_eq_true, decide_eq_true_eq] at may
        simp only [Link.report, List.countP_append, List.countP_singleton, CtEvent.isResponse, if_true]
        omega
    | connectionState | passthroughRsp | metadataRsp | changeNotify | remoteFeatures | other =>
        simpa only [Link.report, List.countP_append, List.countP_singleton, CtEvent.isResponse,
          Bool.false_eq_true, if_false, Nat.add_zero] using answers
  inOrder := by
    apply List.pairwise_append.mpr
    refine ⟨kept.inOrder, List.pairwise_singleton _ _, ?_⟩
    intro first waits later last
    rw [List.mem_singleton.mp last]
    exact kept.inOrder_report may first waits
  record := kept.record
  registered := kept.registered
  sent := kept.sent

section EmptyMask

variable (empty : ∀ eventId, test 0 eventId = false)
include empty

theorem wanted_zero (eventId : UInt8) : wanted test 0 eventId = false := by
  rw [wanted, empty, Bool.and_false]

theorem start : Kept test Link.start where
  leads := rfl
  answers := Nat.le_refl 0
  inOrder := .nil
  record := rfl
  registered := by
    intro eventId
    show 0 = (wanted test 0 eventId).toNat
    rw [wanted_zero empty, Bool.toNat_false]
  sent := fun _ member => absurd member List.not_mem_nil

/-- No registration is outstanding before the answer. -/
theorem registered_zero (kept : Kept test link) (unanswered : link.answered = none) (eventId : UInt8) :
    link.registered eventId = 0 := by
  rw [kept.registered, kept.record, unanswered, Option.getD_none, wanted_zero empty, Bool.toNat_false]

/-- The new commands are sent with the capabilities of the connection. -/
theorem sent_handle (kept : Kept test link)
    (record : (link.handle test event rest).peerRnCap = (link.handle test event rest).answered.getD 0) :
    ∀ entry ∈ (link.handle test event rest).sent,
      ∃ bits, entry.capabilities = some bits ∧ test bits entry.eventId := by
  intro entry member
  rw [Link.handle_peerRnCap] at record
  rcases List.mem_append.mp member with old | new
  · rw [Link.observe_sent] at old
    exact kept.sent entry old
  · obtain ⟨eventId, listed, rfl⟩ := List.mem_map.mp new
    have supported := events_supported link.peerRnCap event eventId listed
    rw [record] at supported
    show ∃ bits, (link.handle test event rest).answered = some bits ∧ test bits eventId
    cases answered : (link.handle test event rest).answered with
    | none =>
        rw [answered, Option.getD_none, empty] at supported
        exact absurd supported Bool.false_ne_true
    | some bits =>
        rw [answered] at supported
        exact ⟨bits, rfl, supported⟩

theorem handle_connected (kept : Kept test link)
    (pending : link.pending = .connectionState true :: rest) :
    Kept test (link.handle test (.connectionState true) rest) := by
  have leads := kept.leads
  rw [pending] at leads
  have answers := kept.answers
  have disconnected : link.connected = false := by simpa using leads.1.symm
  simp only [Link.answers, disconnected, Bool.toNat_false, pending, List.countP_cons, CtEvent.isResponse] at answers
  constructor
  · exact leads.2
  · show link.unanswered + 1 + rest.countP CtEvent.isResponse + link.answered.isSome.toNat ≤ 1
    omega
  · exact (kept.rest_inOrder pending).2
  · exact kept.record
  · exact kept.registered
  · exact kept.sent_handle empty kept.record

theorem handle_disconnected (kept : Kept test link)
    (pending : link.pending = .connectionState false :: rest) :
    Kept test (link.handle test (.connectionState false) rest) := by
  have leads := kept.leads
  rw [pending] at leads
  obtain ⟨first, inOrder⟩ := kept.rest_inOrder pending
  constructor
  · exact leads.2
  · show 0 + rest.countP CtEvent.isResponse + 0 ≤ 0
    have noResponse : rest.countP CtEvent.isResponse = 0 := by
      apply List.countP_eq_zero.mpr
      intro later waits
      have order := first later waits
      cases later with
      | getRnCapabilitiesRsp bits => exact order.elim
      | connectionState | passthroughRsp | metadataRsp | changeNotify | remoteFeatures | other =>
          exact Bool.false_ne_true
    omega
  · exact inOrder
  · rfl
  · intro eventId
    show 0 = (wanted test 0 eventId).toNat
    rw [wanted_zero empty, Bool.toNat_false]
  · exact kept.sent_handle empty rfl

/-- A wanted notification is registered again and an unwanted one was not registered. -/
theorem handle_notify {eventId : UInt8} (kept : Kept test link)
    (pending : link.pending = .changeNotify eventId :: rest) :
    Kept test (link.handle test (.changeNotify eventId) rest) := by
  have leads := kept.leads
  have answers := kept.answers
  rw [pending] at leads
  simp only [Link.answers, pending, List.countP_cons, CtEvent.isResponse] at answers
  have registered : ∀ id, (link.handle test (.changeNotify eventId) rest).registered id = link.registered id := by
    intro id
    show (if id = eventId then link.registered id - 1 else link.registered id) +
      ((btAvNotifyEvtHandler test eventId link.peerRnCap).filterMap Command.eventId).count id = link.registered id
    rw [btAvNotifyEvtHandler_events, kept.registered]
    by_cases same : id = eventId
    · subst same
      cases wanted test link.peerRnCap id with
      | false => simp
      | true => simp
    · rw [if_neg same]
      split
      · rw [List.count_singleton, if_neg (by simpa using Ne.symm same), Nat.add_zero]
      · rfl
  constructor
  · exact leads
  · show link.unanswered + (btAvNotifyEvtHandler test eventId link.peerRnCap).countP Command.asksCapabilities +
      rest.countP CtEvent.isResponse + link.answered.isSome.toNat ≤ link.connected.toNat
    rw [btAvNotifyEvtHandler_asks]
    exact answers
  · exact (kept.rest_inOrder pending).2
  · exact kept.record
  · intro id
    rw [registered]
    exact kept.registered id
  · exact kept.sent_handle empty kept.record

theorem handle_response {bits : UInt16} (kept : Kept test link)
    (pending : link.pending = .getRnCapabilitiesRsp bits :: rest) :
    Kept test (link.handle test (.getRnCapabilitiesRsp bits) rest) := by
  have leads := kept.leads
  rw [pending] at leads
  have waits : .getRnCapabilitiesRsp bits ∈ link.pending := by
    rw [pending]
    exact List.mem_cons_self
  obtain ⟨connected, unanswered, single, fresh⟩ := kept.response_waits waits
  rw [pending, List.countP_cons_of_pos rfl] at single
  have inOrder := (kept.rest_inOrder pending).2
  constructor
  · exact leads
  · show link.unanswered +
        (btAvHdlAvrcCtEvt test link.peerRnCap (.getRnCapabilitiesRsp bits)).2.countP Command.asksCapabilities +
      rest.countP CtEvent.isResponse + 1 ≤ link.connected.toNat
    rw [response_asks, unanswered, connected, Bool.toNat_true]
    omega
  · exact inOrder
  · rfl
  · intro eventId
    show link.registered eventId +
        ((btAvHdlAvrcCtEvt test link.peerRnCap (.getRnCapabilitiesRsp bits)).2.filterMap Command.eventId).count
          eventId = (wanted test bits eventId).toNat
    rw [response_events, kept.registered_zero empty fresh, Nat.zero_add]
  · exact kept.sent_handle empty rfl

theorem handle (kept : Kept test link) (pending : link.pending = event :: rest) :
    Kept test (link.handle test event rest) := by
  cases event with
  | connectionState connected =>
      cases connected with
      | true => exact kept.handle_connected empty pending
      | false => exact kept.handle_disconnected empty pending
  | changeNotify eventId => exact kept.handle_notify empty pending
  | getRnCapabilitiesRsp bits => exact kept.handle_response empty pending
  | passthroughRsp | metadataRsp | remoteFeatures | other =>
      exact kept.handle_other pending (Link.send_nil _) rfl rfl

theorem step {label : LinkLabel} {next : Link} (kept : Kept test link) (taken : link.step test label = some next) :
    Kept test next := by
  cases label with
  | report event =>
      simp only [Link.step, Option.ite_none_right_eq_some, Option.some.injEq] at taken
      obtain ⟨may, rfl⟩ := taken
      exact kept.report may
  | handle =>
      simp only [Link.step] at taken
      split at taken
      · rename_i event rest pending
        cases taken
        exact kept.handle empty pending
      · cases taken

theorem reachable (reached : (linkMachine test).Reachable link) : Kept test link :=
  reached.invariant (Kept test) (start empty) fun _ _ _ kept _ taken => kept.step empty taken

end EmptyMask

end Kept

/-- After the response of a connection the wanted notifications are registered once and no others are. -/
theorem registered_once {test : UInt16 → UInt8 → Bool} (empty : ∀ eventId, test 0 eventId = false)
    {link : Link} (reached : (linkMachine test).Reachable link) :
    (∀ bits, link.answered = some bits →
      ∀ eventId, link.registered eventId = (wanted test bits eventId).toNat) ∧
      ∀ entry ∈ link.sent, ∃ bits, entry.capabilities = some bits ∧ test bits entry.eventId := by
  have kept := Kept.reachable empty reached
  constructor
  · intro bits answered eventId
    rw [kept.registered, kept.record, answered, Option.getD_some]
  · exact kept.sent

/-- A reconnection to a peer that supports fewer notifications. -/
theorem registered_once_reconnected : ∃ link : Link,
    (linkMachine fun bits eventId => bits.toNat.testBit eventId.toNat).Reachable link ∧
      link.registered rnTrackChange = 1 ∧ link.registered rnPlayPosChanged = 0 ∧ link.sent.length = 5 := by
  have finished : (linkMachine fun bits eventId => bits.toNat.testBit eventId.toNat).run Link.start
      [.report (.connectionState true), .handle, .report (.getRnCapabilitiesRsp 0x26), .handle,
        .report (.changeNotify rnTrackChange), .handle, .report (.connectionState false), .handle,
        .report (.connectionState true), .handle, .report (.getRnCapabilitiesRsp 0x04), .handle] = some _ := rfl
  have reached : (linkMachine _).Reachable _ := Machine.run_reaches finished fun _ _ _ => trivial
  have once := (registered_once (fun eventId => Nat.zero_testBit _) reached).1 0x04 rfl
  exact ⟨_, reached, once rnTrackChange, once rnPlayPosChanged, rfl⟩

end DesktopCube.Avrc
