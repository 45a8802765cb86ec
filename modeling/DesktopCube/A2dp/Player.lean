import DesktopCube.A2dp.InStep
import DesktopCube.Library.Worker

namespace DesktopCube.A2dp
open Transition Program
open Worker (latest latest_snoc)

/-- The sample rate and the channel count of the I2S channel. -/
structure Format where
  sampleRate : Nat
  chCount : Nat
  deriving DecidableEq, Repr

/-- The driver is installed with 44100 Hz and `I2S_SLOT_MODE_STEREO`. -/
def Format.installed : Format := ⟨44100, 2⟩

structure ScanMode where
  connectable : Bool
  discoverable : Bool
  deriving DecidableEq, Repr

inductive AudioState where
  | suspend
  | started
  deriving DecidableEq, Repr

/-- The codec of a configuration, for SBC with the first octet of its information. -/
inductive Mcc where
  | sbc (oct0 : UInt8)
  | other (type : Nat)
  deriving DecidableEq, Repr

/-- The events that `bt_app_a2d_cb` dispatches. -/
inductive A2dEvent where
  | connectionState (state : ConnectionState)
  | audioState (state : AudioState)
  | audioCfg (mcc : Mcc)
  | profState (initSuccess : Bool)
  | snkPscCfg (pscMask : UInt16)
  | snkSetDelayValue (success : Bool) (delayValue : UInt16)
  | snkGetDelayValue (delayValue : UInt16)
  deriving DecidableEq, Repr

/-- The globals and the settings of the stack that `bt_av_hdl_a2d_evt` writes and the creations of the last start-up. -/
structure Player where
  resources : Resources
  creations : List Bool
  format : Format
  scanMode : ScanMode
  audioState : AudioState
  delayValues : List UInt16
  deriving DecidableEq, Repr

/-- The stack-up handler has made the device discoverable. -/
def Player.start : Player := ⟨Resources.start, [], Format.installed, ⟨true, true⟩, .suspend, []⟩

/-- The calls of `bt_av_hdl_a2d_evt`; those on an installed channel ignore their result. -/
inductive PlayerOp where
  | audio (op : Op)
  | setScanMode (mode : ScanMode)
  | channelDisable
  | channelReconfigStdClock (sampleRate : Nat)
  | channelReconfigStdSlot (chCount : Nat)
  | channelEnable
  | audioState (state : AudioState)
  | setDelayValue (delayValue : UInt16)
  deriving DecidableEq, Repr

/-- A start-up records the results of its creations. -/
def creationsAfter (op : Op) (succeeds : Bool) (creations : List Bool) : List Bool :=
  match op with
  | .prefetching => []
  | .semaphoreCreate | .ringbufferCreate | .taskCreate => creations ++ [succeeds]
  | _ => creations

/-- The initialisation of the channel sets its format. -/
def Player.put (op : Op) (succeeds : Bool) (p : Player) (r : Resources) : Player :=
  { p with
    resources := r
    creations := creationsAfter op succeeds p.creations
    format := if op = .i2sChannelInitStdMode then Format.installed else p.format }

/-- The driver changes a channel in the required state and reads freed memory after its deletion. -/
def Player.onChannel (p : Player) (required : Channel) (change : Player → Player) : Outcome Player :=
  if p.resources.txChan = .deleted then .abort
  else if p.resources.txChan = required then .next (change p)
  else .next p

def Player.setChannel (channel : Channel) (p : Player) : Player :=
  { p with resources := { p.resources with txChan := channel } }

def Player.execute (p : Player) (op : PlayerOp) (succeeds : Bool) : Outcome Player :=
  match op with
  | .audio op => (A2dp.execute p.resources op succeeds).map (Player.put op succeeds p)
  | .setScanMode mode => .next { p with scanMode := mode }
  | .channelDisable => p.onChannel .enabled (Player.setChannel .disabled)
  | .channelReconfigStdClock rate =>
      p.onChannel .disabled fun p => { p with format := { p.format with sampleRate := rate } }
  | .channelReconfigStdSlot count =>
      p.onChannel .disabled fun p => { p with format := { p.format with chCount := count } }
  | .channelEnable => p.onChannel .disabled (Player.setChannel .enabled)
  | .audioState state => .next { p with audioState := state }
  | .setDelayValue value => .next { p with delayValues := p.delayValues ++ [value] }

/-- The first set bit of the sampling frequencies counts. -/
def sampleRate (oct0 : UInt8) : Nat :=
  if oct0 &&& (1 : UInt8) <<< 6 ≠ 0 then 32000
  else if oct0 &&& (1 : UInt8) <<< 5 ≠ 0 then 44100
  else if oct0 &&& (1 : UInt8) <<< 4 ≠ 0 then 48000
  else 16000

def chCount (oct0 : UInt8) : Nat := if oct0 &&& (1 : UInt8) <<< 3 ≠ 0 then 1 else 2

/-- The value `APP_DELAY_VALUE`. -/
def appDelayValue : UInt16 := 50

def scanModeOps : ConnectionState → List PlayerOp
  | .disconnected => [.setScanMode ⟨true, true⟩]
  | .connected => [.setScanMode ⟨false, false⟩]
  | .connecting | .disconnecting => []

namespace Player

/-- The whole handler with the operations of its connection states. -/
def btAvHdlA2dEvt : A2dEvent → List PlayerOp
  | .connectionState state => scanModeOps state ++ (A2dp.btAvHdlA2dEvt state).map .audio
  | .audioState state => [.audioState state]
  | .audioCfg (.sbc oct0) =>
      [.channelDisable, .channelReconfigStdClock (sampleRate oct0), .channelReconfigStdSlot (chCount oct0),
        .channelEnable]
  | .audioCfg (.other _) | .profState _ | .snkPscCfg _ | .snkSetDelayValue _ _ => []
  | .snkGetDelayValue value => [.setDelayValue (value + appDelayValue)]

end Player

/-- The messages of other callbacks run handlers that touch no player state. -/
inductive PlayerMessage where
  | a2d (event : A2dEvent)
  | other
  deriving DecidableEq, Repr

def playerTask : Worker.Task PlayerMessage PlayerOp Bool Player where
  handler
    | .a2d event => Player.btAvHdlA2dEvt event
    | .other => []
  execute := Player.execute
  initial := Player.start

section History

variable (history : List PlayerMessage)

def connectionOf : PlayerMessage → Option ConnectionState
  | .a2d (.connectionState state) => some state
  | _ => none

def audioStateOf : PlayerMessage → Option AudioState
  | .a2d (.audioState state) => some state
  | _ => none

/-- A new session starts with the installed format. -/
def formatOf : PlayerMessage → Option Format
  | .a2d (.connectionState .connecting) => some Format.installed
  | .a2d (.audioCfg (.sbc oct0)) => some ⟨sampleRate oct0, chCount oct0⟩
  | _ => none

def delayOf : PlayerMessage → Option UInt16
  | .a2d (.snkGetDelayValue value) => some (value + appDelayValue)
  | _ => none

/-- The state of the connection after all reports. -/
def connection : ConnectionState := latest history connectionOf .disconnected

/-- The stack reports sessions and configures the stream only inside of one. -/
def stackPermits : PlayerMessage → Bool
  | .a2d (.connectionState state) => follows (connection history) state
  | .a2d (.audioCfg (.sbc _)) => connection history ≠ .disconnected
  | _ => true

/-- The device can be found whenever no peer is connected. -/
def scanModeOf : ConnectionState → ScanMode
  | .disconnected | .connecting => ⟨true, true⟩
  | .connected | .disconnecting => ⟨false, false⟩

/-- A start-up tries its creations in order until one of them fails. -/
def Tried (creations : List Bool) : Prop :=
  creations = [false] ∨ creations = [true, false] ∨ ∃ last, creations = [true, true, last]

/-- A connected peer has the objects that the last start-up created and no other peer has any. -/
def Player.Objects (p : Player) : ConnectionState → Prop
  | .disconnected | .connecting =>
      p.resources.semaphore.live = [] ∧ p.resources.ringbuf.live = [] ∧ p.resources.task.live = []
  | .connected | .disconnecting =>
      Tried p.creations ∧ p.resources.semaphore.usable = p.creations.getD 0 false ∧
        p.resources.ringbuf.usable = p.creations.getD 1 false ∧ p.resources.task.usable = p.creations.getD 2 false

/-- The player is what the reports describe. -/
structure Described (p : Player) : Prop where
  held : Held (connection history) p.resources
  objects : p.Objects (connection history)
  format : connection history ≠ .disconnected → p.format = latest history formatOf Format.installed
  scanMode : p.scanMode = scanModeOf (connection history)
  audioState : p.audioState = latest history audioStateOf .suspend
  delayValues : p.delayValues = history.filterMap delayOf

end History

namespace Player

/-- The operations of the handlers on the audio resources. -/
def audioOps (ops : List PlayerOp) : List Op :=
  ops.filterMap fun op => match op with
    | .audio op => some op
    | _ => none

theorem audioOps_audio (ops : List Op) : audioOps (ops.map .audio) = ops := by
  induction ops with
  | nil => rfl
  | cons op rest ih => exact congrArg (op :: ·) ih

/-- The I2S task has its channel whatever the handlers do. -/
def Guarded (ops : List PlayerOp) (p : Player) : Prop := Covered (audioOps ops) p.resources

/-- The settings outside the audio resources. -/
def settings (p : Player) : ScanMode × AudioState × List UInt16 := (p.scanMode, p.audioState, p.delayValues)

/-- The handler of a connection state sets the format when it initialises the channel. -/
def Tracked (p : Player) (state : ConnectionState) (ops : List Op) (after : Player) : Prop :=
  after.settings = p.settings ∧
    (.i2sChannelInitStdMode ∈ ops ∧ state = .connecting ∧ ops ⊆ btI2sDriverInstall ∨
      .i2sChannelInitStdMode ∉ ops ∧
        after.format = if state = .connecting then Format.installed else p.format)

namespace Tracked

variable {p : Player} {state : ConnectionState}

theorem start (p : Player) (state : ConnectionState) : Tracked p state (A2dp.btAvHdlA2dEvt state) p := by
  refine ⟨rfl, ?_⟩
  cases state with
  | connecting => exact .inl ⟨by decide, rfl, List.Subset.refl _⟩
  | disconnected | connected | disconnecting => exact .inr ⟨by decide, rfl⟩

theorem goesOn (op : Op) (rest : List Op) (after : Player) (succeeds : Bool) (r : Resources)
    (_executed : A2dp.execute after.resources op succeeds = .next r)
    (tracked : Tracked p state (op :: rest) after) : Tracked p state rest (after.put op succeeds r) := by
  refine ⟨tracked.1, ?_⟩
  rcases tracked.2 with ⟨waiting, connecting, install⟩ | ⟨absent, format⟩
  · by_cases later : .i2sChannelInitStdMode ∈ rest
    · exact .inl ⟨later, connecting, fun _ member => install (List.mem_cons_of_mem op member)⟩
    · have now : Op.i2sChannelInitStdMode = op := (List.mem_cons.mp waiting).resolve_right later
      refine .inr ⟨later, ?_⟩
      rw [put, if_pos now.symm, if_pos connecting]
  · rw [List.mem_cons, not_or] at absent
    refine .inr ⟨absent.2, ?_⟩
    rw [put, if_neg (Ne.symm absent.1)]
    exact format

/-- The installation does not leave its handler early. -/
theorem leaves (op : Op) (rest : List Op) (after : Player) (succeeds : Bool) (r : Resources)
    (executed : A2dp.execute after.resources op succeeds = .leave r)
    (tracked : Tracked p state (op :: rest) after) : Tracked p state [] (after.put op succeeds r) := by
  refine ⟨tracked.1, .inr ⟨by simp, ?_⟩⟩
  rcases tracked.2 with ⟨_, _, install⟩ | ⟨absent, format⟩
  · have member := install List.mem_cons_self
    simp only [btI2sDriverInstall, List.mem_cons, List.not_mem_nil, or_false] at member
    rcases member with rfl | rfl | rfl <;>
    · simp only [A2dp.execute] at executed
      split at executed <;> cases executed
  · rw [List.mem_cons, not_or] at absent
    rw [put, if_neg (Ne.symm absent.1)]
    exact format

end Tracked

/-- The objects and their record tell the description of the objects. -/
theorem Objects.of_same {p after : Player} {state : ConnectionState} (objects : p.Objects state)
    (resources : (after.resources.semaphore, after.resources.ringbuf, after.resources.task) =
      (p.resources.semaphore, p.resources.ringbuf, p.resources.task))
    (creations : after.creations = p.creations) : after.Objects state := by
  simp only [Prod.mk.injEq] at resources
  cases state <;> simpa only [Objects, resources, creations] using objects

/-- Without a semaphore there is no other object. -/
theorem no_objects {p : Player} (covered : Covered [] p.resources) (absent : p.resources.semaphore.live = []) :
    p.resources.semaphore.live = [] ∧ p.resources.ringbuf.live = [] ∧ p.resources.task.live = [] :=
  have noRing := covered.tidy.ringbuf_live absent
  ⟨absent, noRing, covered.tidy.task_live noRing⟩

/-- The start-up of a free player creates its objects until a creation fails. -/
theorem btI2sTaskStartUp_creates {p : Player} (free : p.Objects .connecting) :
    Keeps Player.execute (fun _ _ => True) (fun after => after.Objects .connected)
      (btI2sTaskStartUp.map .audio) p := by
  obtain ⟨_, noRing, noTask⟩ := free
  have unusable {slot : Slot} (absent : slot.live = []) : slot.usable = false :=
    Bool.eq_false_iff.mpr fun usable => Slot.live_of_usable usable absent
  have created (slot : Slot) : (slot.create true).usable = true := by simp [Slot.create, Slot.usable]
  have failed (slot : Slot) : (slot.create false).usable = false := rfl
  refine ⟨trivial, fun _ => ⟨trivial, fun semaphore => ?_⟩⟩
  cases semaphore with
  | false => exact ⟨trivial, .inl rfl, failed _, unusable noRing, unusable noTask⟩
  | true =>
      refine ⟨trivial, fun ringbuf => ?_⟩
      cases ringbuf with
      | false => exact ⟨trivial, .inr (.inl rfl), created _, failed _, unusable noTask⟩
      | true =>
          refine ⟨trivial, fun task => ⟨trivial, .inr (.inr ⟨task, rfl⟩), created _, created _, ?_⟩⟩
          cases task with
          | false => exact unusable noTask
          | true => exact created _

/-- The handler of a connection state leaves the objects of the state. -/
theorem connectionState_objects {handled state : ConnectionState} {p : Player}
    (covered : Covered [] p.resources) (objects : p.Objects handled) (next : follows handled state = true)
    (keeps : Keeps Player.execute Guarded (fun after => Held state after.resources)
      ((A2dp.btAvHdlA2dEvt state).map .audio) p) :
    Keeps Player.execute Guarded (fun after => after.Objects state) ((A2dp.btAvHdlA2dEvt state).map .audio) p := by
  cases state with
  | disconnected | connecting =>
      apply keeps.mono
      · exact fun _ _ covered => covered
      · exact fun after covered held => no_objects covered held.2
  | connected =>
      have waiting : handled = .connecting := by cases handled <;> first | rfl | cases next
      apply (keeps.and (btI2sTaskStartUp_creates (waiting ▸ objects))).mono
      · exact fun _ _ both => both.1
      · exact fun _ _ both => both.2
  | disconnecting =>
      have connected : handled = .connected := by cases handled <;> first | rfl | cases next
      exact ⟨covered, (connected ▸ objects : p.Objects .connected)⟩

/-- The handler of the next connection state runs inside the player and sets the format. -/
theorem connectionState_keeps {handled state : ConnectionState} {p : Player}
    (covered : Covered [] p.resources) (held : Held handled p.resources) (objects : p.Objects handled)
    (next : follows handled state = true) :
    Keeps Player.execute Guarded
      (fun after => Held state after.resources ∧ after.Objects state ∧ after.settings = p.settings ∧
        after.format = if state = .connecting then Format.installed else p.format)
      ((A2dp.btAvHdlA2dEvt state).map .audio) p := by
  have keeps := btAvHdlA2dEvt_covered covered held next
  have lifted := keeps.lift Player.execute Player.resources .audio Player.put audioOps (Tracked p state)
    (fun _ _ _ => rfl) (fun _ _ _ _ => rfl) audioOps_audio Tracked.goesOn Tracked.leaves (Tracked.start p state)
  have found := connectionState_objects covered objects next (lifted.mono (fun _ _ covered => covered)
    fun _ _ both => both.1)
  apply (lifted.and found).mono
  · exact fun _ _ both => both.1
  · rintro after _ ⟨⟨held, settings, format⟩, objects⟩
    exact ⟨held, objects, settings, format.resolve_left (by simp) |>.2⟩

/-- The connection and the device's visibility follow a connection state. -/
theorem scanModeOps_keeps {handled state : ConnectionState} {p : Player}
    (covered : Covered [] p.resources) (held : Held handled p.resources) (objects : p.Objects handled)
    (scanMode : p.scanMode = scanModeOf handled) (next : follows handled state = true) :
    Keeps Player.execute Guarded
      (fun after => Held state after.resources ∧ after.Objects state ∧
        after.settings = (scanModeOf state, p.audioState, p.delayValues) ∧
        after.format = if state = .connecting then Format.installed else p.format)
      (btAvHdlA2dEvt (.connectionState state)) p := by
  cases state with
  | disconnected | connected =>
      refine ⟨?_, fun _ => ?_⟩
      · show Covered (audioOps (List.map .audio _)) p.resources
        rw [audioOps_audio]
        exact (btAvHdlA2dEvt_covered covered held next).now
      · exact connectionState_keeps (p := { p with scanMode := _ }) covered held (objects.of_same rfl rfl) next
  | connecting =>
      have free : handled = .disconnected := by cases handled <;> first | rfl | cases next
      have same : p.settings = (scanModeOf .connecting, p.audioState, p.delayValues) := by
        rw [settings, scanMode, free]
        rfl
      exact same ▸ connectionState_keeps covered held objects next
  | disconnecting =>
      have connected : handled = .connected := by cases handled <;> first | rfl | cases next
      have same : p.settings = (scanModeOf .disconnecting, p.audioState, p.delayValues) := by
        rw [settings, scanMode, connected]
        rfl
      exact same ▸ connectionState_keeps covered held objects next

/-- The handler of an SBC configuration gives the live channel the decoded format. -/
theorem audioCfg_keeps {p : Player} (oct0 : UInt8) (covered : Covered [] p.resources)
    (enabled : p.resources.txChan = .enabled) :
    Keeps Player.execute Guarded
      (· = { p with format := ⟨sampleRate oct0, chCount oct0⟩ })
      (btAvHdlA2dEvt (.audioCfg (.sbc oct0))) p := by
  have disabled : Covered [] { p.resources with txChan := .disabled } :=
    ⟨covered.tidy.channel .disabled trivial, fun _ => .inl rfl⟩
  have same : { p.resources with txChan := .enabled } = p.resources := by rw [← enabled]
  refine ⟨covered, fun _ => ?_⟩
  simp only [Player.execute, onChannel, enabled, setChannel, reduceCtorEq, if_false, if_true]
  refine ⟨disabled, fun _ => ?_⟩
  simp only [Player.execute, onChannel, reduceCtorEq, if_false, if_true]
  refine ⟨disabled, fun _ => ?_⟩
  simp only [Player.execute, onChannel, reduceCtorEq, if_false, if_true]
  refine ⟨disabled, fun _ => ?_⟩
  simp only [Player.execute, onChannel, setChannel, reduceCtorEq, if_false, if_true, same]
  exact ⟨covered, rfl⟩

end Player

namespace Described

variable {history : List PlayerMessage} {p : Player} {message : PlayerMessage}

/-- A message of another kind leaves the description. -/
theorem snoc (described : Described history p) (connection : connectionOf message = none)
    (format : formatOf message = none) (audioState : audioStateOf message = none)
    (delay : delayOf message = none) : Described (history ++ [message]) p := by
  have same : DesktopCube.A2dp.connection (history ++ [message]) = DesktopCube.A2dp.connection history := by
    rw [A2dp.connection, latest_snoc, connection]
    rfl
  refine ⟨?_, ?_, ?_, ?_, ?_, ?_⟩
  · rw [same]
    exact described.held
  · rw [same]
    exact described.objects
  · rw [same, latest_snoc, format]
    exact described.format
  · rw [same]
    exact described.scanMode
  · rw [latest_snoc, audioState]
    exact described.audioState
  · rw [List.filterMap_append, described.delayValues]
    simp [delay]

/-- A new connection state starts with the installed format or goes on with its session. -/
theorem connectionState {state : ConnectionState} {after : Player} (described : Described history p)
    (next : follows (A2dp.connection history) state = true) (held : Held state after.resources)
    (objects : after.Objects state)
    (settings : after.settings = (scanModeOf state, p.audioState, p.delayValues))
    (format : after.format = if state = .connecting then Format.installed else p.format) :
    Described (history ++ [.a2d (.connectionState state)]) after := by
  have now : A2dp.connection (history ++ [.a2d (.connectionState state)]) = state := latest_snoc ..
  simp only [Player.settings, Prod.mk.injEq] at settings
  refine ⟨?_, ?_, ?_, ?_, ?_, ?_⟩
  · rw [now]
    exact held
  · rw [now]
    exact objects
  · intro connected
    rw [now] at connected
    rw [format, latest_snoc]
    cases state with
    | connecting => rfl
    | disconnected => exact absurd rfl connected
    | connected | disconnecting =>
        apply described.format
        intro handled
        rw [handled] at next
        cases next
  · rw [now]
    exact settings.1
  · rw [settings.2.1, latest_snoc]
    exact described.audioState
  · rw [settings.2.2, List.filterMap_append, described.delayValues]
    exact (List.append_nil _).symm

theorem audioCfg (described : Described history p) (oct0 : UInt8) :
    Described (history ++ [.a2d (.audioCfg (.sbc oct0))])
      { p with format := ⟨sampleRate oct0, chCount oct0⟩ } := by
  have same : A2dp.connection (history ++ [.a2d (.audioCfg (.sbc oct0))]) = A2dp.connection history :=
    latest_snoc ..
  refine ⟨?_, ?_, ?_, ?_, ?_, ?_⟩
  · rw [same]
    exact described.held
  · rw [same]
    exact described.objects.of_same rfl rfl
  · rw [latest_snoc]
    exact fun _ => rfl
  · rw [same]
    exact described.scanMode
  · rw [latest_snoc]
    exact described.audioState
  · rw [List.filterMap_append, described.delayValues]
    exact (List.append_nil _).symm

theorem audioState_snoc (described : Described history p) (state : AudioState) :
    Described (history ++ [.a2d (.audioState state)]) { p with audioState := state } := by
  have same : A2dp.connection (history ++ [.a2d (.audioState state)]) = A2dp.connection history :=
    latest_snoc ..
  refine ⟨?_, ?_, ?_, ?_, ?_, ?_⟩
  · rw [same]
    exact described.held
  · rw [same]
    exact described.objects.of_same rfl rfl
  · rw [same, latest_snoc]
    exact described.format
  · rw [same]
    exact described.scanMode
  · rw [latest_snoc]
    rfl
  · rw [List.filterMap_append, described.delayValues]
    exact (List.append_nil _).symm

theorem delay (described : Described history p) (value : UInt16) :
    Described (history ++ [.a2d (.snkGetDelayValue value)])
      { p with delayValues := p.delayValues ++ [value + appDelayValue] } := by
  have same : A2dp.connection (history ++ [.a2d (.snkGetDelayValue value)]) = A2dp.connection history :=
    latest_snoc ..
  refine ⟨?_, ?_, ?_, ?_, ?_, ?_⟩
  · rw [same]
    exact described.held
  · rw [same]
    exact described.objects.of_same rfl rfl
  · rw [same, latest_snoc]
    exact described.format
  · rw [same]
    exact described.scanMode
  · rw [latest_snoc]
    exact described.audioState
  · rw [List.filterMap_append, described.delayValues]
    rfl

/-- A stream has its channel. -/
theorem enabled (described : Described history p) (connected : A2dp.connection history ≠ .disconnected) :
    p.resources.txChan = .enabled :=
  described.held.enabled connected

end Described

theorem playerTask_handles : Worker.Handles playerTask stackPermits Player.Guarded Described := by
  intro history message p permitted covered described
  have allowed := permitted.at_split
  cases message with
  | other => exact ⟨covered, described.snoc rfl rfl rfl rfl⟩
  | a2d event =>
      cases event with
      | connectionState state =>
          apply (Player.scanModeOps_keeps covered described.held described.objects described.scanMode allowed).mono
          · exact fun _ _ guarded => guarded
          · exact fun _ _ ⟨held, objects, settings, format⟩ =>
              described.connectionState allowed held objects settings format
      | audioState state => exact ⟨covered, fun _ => ⟨covered, described.audioState_snoc state⟩⟩
      | audioCfg mcc =>
          cases mcc with
          | sbc oct0 =>
              have connected : connection history ≠ .disconnected := of_decide_eq_true allowed
              apply (Player.audioCfg_keeps oct0 covered (described.enabled connected)).mono
              · exact fun _ _ guarded => guarded
              · rintro after _ rfl
                exact described.audioCfg oct0
          | other type => exact ⟨covered, described.snoc rfl rfl rfl rfl⟩
      | profState success => exact ⟨covered, described.snoc rfl rfl rfl rfl⟩
      | snkPscCfg mask => exact ⟨covered, described.snoc rfl rfl rfl rfl⟩
      | snkSetDelayValue success value => exact ⟨covered, described.snoc rfl rfl rfl rfl⟩
      | snkGetDelayValue value => exact ⟨covered, fun _ => ⟨covered, described.delay value⟩⟩

abbrev playerMachine := Worker.machine playerTask stackPermits 10

theorem playerMachine_follows {p : Worker.Progress PlayerMessage PlayerOp Player 10}
    (reached : playerMachine.Reaches Worker.Progress.Delivered playerMachine.initial p) :
    Worker.Follows playerTask stackPermits Player.Guarded Described p :=
  Worker.follows_of_reaches playerTask_handles
    ⟨⟨rfl, rfl, rfl, fun live => absurd rfl live, fun live => absurd rfl live, trivial⟩,
      fun live => absurd rfl live⟩
    ⟨⟨rfl, rfl⟩, ⟨rfl, rfl, rfl⟩, fun connected => absurd rfl connected, rfl, rfl, rfl⟩ reached

/-- A player that loses no message never aborts and does what the handled reports describe. -/
theorem player_follows {p : Worker.Progress PlayerMessage PlayerOp Player 10}
    (reached : playerMachine.Reaches Worker.Progress.Delivered playerMachine.initial p) :
    p.aborted = false ∧ p.reported = p.handled ++ p.queue.items ∧ Player.Guarded p.ops p.state ∧
      (p.ops = [] → Described p.handled p.state) := by
  have follows := playerMachine_follows reached
  exact ⟨follows.running, follows.complete, follows.keeps.now, follows.idle⟩

/-- A session with a configuration for 48000 Hz and one channel whose start-up fails to create the task. -/
theorem player_follows_configured : ∃ p : Worker.Progress PlayerMessage PlayerOp Player 10,
    p.handled.length = 4 ∧ p.state.format = ⟨48000, 1⟩ ∧ p.state.delayValues = [170] ∧
      p.state.resources.ringbuf.usable = true ∧ p.state.resources.task.usable = false := by
  have finished : playerMachine.checkedRun Worker.Progress.Delivered playerMachine.initial
      [.report (.a2d (.connectionState .connecting)) true, .report (.a2d (.snkGetDelayValue 120)) true,
        .receive, .execute true, .execute true, .execute true, .receive, .execute true,
        .report (.a2d (.connectionState .connected)) true, .report (.a2d (.audioCfg (.sbc 0x18))) true, .receive,
        .execute true, .execute true, .execute true, .execute true, .execute false, .receive,
        .execute true, .execute true, .execute true, .execute true] = some _ := rfl
  have described := (player_follows (Machine.checkedRun_reaches finished)).2.2.2 rfl
  have objects : Player.Objects _ .connected := described.objects
  exact ⟨_, rfl, described.format (by decide), described.delayValues, objects.2.2.1, objects.2.2.2⟩

end DesktopCube.A2dp
