import DesktopCube.Avrc.Registration
import DesktopCube.Work.Running

namespace DesktopCube.Avrc
open Transition Program Worker Work

def rnVolumeChange : UInt8 := 0x0d

/-- The events that `bt_app_rc_tg_cb` dispatches with the data that the volume depends on. -/
inductive TgReport where
  | connectionState (connected : Bool)
  | passthroughCmd
  | setAbsoluteVolumeCmd (volume : UInt8)
  | registerNotification (eventId : UInt8)
  | remoteFeatures
  | setPlayerAppValue
  deriving DecidableEq, Repr

/-- The messages of other callbacks touch no volume. -/
inductive VolumeMessage where
  | tg (report : TgReport)
  | other
  deriving DecidableEq, Repr

/-- The globals of the volume and the volumes of the INTERIM responses to the peer. -/
structure Volume where
  volume : UInt8
  volumeNotify : Bool
  volumeLock : Bool
  responses : List UInt8
  deriving DecidableEq, Repr

inductive VolumeOp where
  | lockAcquire
  | setVolume (volume : UInt8)
  | lockRelease
  | setVolumeNotify
  | sendRnRsp
  deriving DecidableEq, Repr

/-- A task that acquires the lock again waits for itself. -/
def Volume.execute (v : Volume) (op : VolumeOp) (_ : Unit) : Outcome Volume :=
  match op with
  | .lockAcquire => if v.volumeLock then .abort else .next { v with volumeLock := true }
  | .setVolume volume => .next { v with volume := volume }
  | .lockRelease => .next { v with volumeLock := false }
  | .setVolumeNotify => .next { v with volumeNotify := true }
  | .sendRnRsp => .next { v with responses := v.responses ++ [v.volume] }

def volumeSetByController (volume : UInt8) : List VolumeOp := [.lockAcquire, .setVolume volume, .lockRelease]

/-- The connection events create and delete the volume task, which touches no volume. -/
def Volume.btAvHdlAvrcTgEvt : TgReport → List VolumeOp
  | .setAbsoluteVolumeCmd volume => volumeSetByController volume
  | .registerNotification eventId => if eventId = rnVolumeChange then [.setVolumeNotify, .sendRnRsp] else []
  | .connectionState _ | .passthroughCmd | .remoteFeatures | .setPlayerAppValue => []

def volumeTask : Worker.Task VolumeMessage VolumeOp Unit Volume where
  handler
    | .tg report => Volume.btAvHdlAvrcTgEvt report
    | .other => []
  execute := Volume.execute
  initial := ⟨0, false, false, []⟩

namespace VolumeMessage

def sets : VolumeMessage → Option UInt8
  | tg (.setAbsoluteVolumeCmd volume) => some volume
  | _ => none

def registers : VolumeMessage → Bool
  | tg (.registerNotification eventId) => eventId = rnVolumeChange
  | _ => false

end VolumeMessage

open VolumeMessage

/-- Each registration is answered with the volume that was set last before it. -/
structure Answers (history : List VolumeMessage) (v : Volume) : Prop where
  volume : v.volume = latest history sets 0
  volumeNotify : v.volumeNotify = history.any registers
  unlocked : v.volumeLock = false
  count : v.responses.length = history.countP registers
  responses : ∀ before message after, history = before ++ message :: after → message.registers = true →
    v.responses[before.countP registers]? = some (latest before sets 0)

namespace Answers

variable {history : List VolumeMessage} {v : Volume} {message : VolumeMessage}

/-- Other messages need no response. -/
theorem quiet {volume : UInt8} (answers : Answers history v) (silent : message.registers = false)
    (set : volume = (message.sets).getD v.volume) :
    Answers (history ++ [message]) { v with volume := volume } := by
  refine ⟨?_, ?_, answers.unlocked, ?_, ?_⟩
  · rw [latest_snoc, ← answers.volume, set]
  · simp [answers.volumeNotify, silent]
  · simp [answers.count, silent]
  · intro before first after split registers
    rcases split_snoc split with ⟨rfl, rfl⟩ | ⟨most, earlier⟩
    · rw [silent] at registers
      cases registers
    · exact answers.responses before first most earlier registers

/-- A registration is answered with the current volume. -/
theorem registered (answers : Answers history v) (registers_ : message.registers = true) :
    Answers (history ++ [message]) { v with volumeNotify := true, responses := v.responses ++ [v.volume] } := by
  have silent : message.sets = none := by
    cases message with
    | other => rfl
    | tg report => cases report <;> first | rfl | cases registers_
  refine ⟨?_, ?_, answers.unlocked, ?_, ?_⟩
  · rw [latest_snoc, silent]
    exact answers.volume
  · simp [registers_]
  · simp [answers.count, registers_]
  · intro before first after split registers
    rcases split_snoc split with ⟨rfl, rfl⟩ | ⟨most, earlier⟩
    · rw [← answers.count, List.getElem?_concat_length, answers.volume]
    · have answered := answers.responses before first most earlier registers
      obtain ⟨inside, _⟩ := List.getElem?_eq_some_iff.mp answered
      rw [List.getElem?_append_left inside]
      exact answered

end Answers

/-- The handler of a message keeps the answers of the messages before it. -/
theorem volumeTask_handles : Worker.HandlesAll volumeTask (fun _ _ => True) Answers := by
  intro history message v _ answers
  have silent (quiet : message.registers = false) (unset : message.sets = none) :
      Answers (history ++ [message]) v := answers.quiet quiet (by rw [unset]; rfl)
  cases message with
  | other => exact ⟨trivial, silent rfl rfl⟩
  | tg report =>
      cases report with
      | connectionState connected => exact ⟨trivial, silent rfl rfl⟩
      | passthroughCmd => exact ⟨trivial, silent rfl rfl⟩
      | remoteFeatures => exact ⟨trivial, silent rfl rfl⟩
      | setPlayerAppValue => exact ⟨trivial, silent rfl rfl⟩
      | setAbsoluteVolumeCmd volume =>
          refine ⟨trivial, fun _ => ?_⟩
          simp only [volumeTask, Volume.execute, answers.unlocked, Bool.false_eq_true, if_false]
          refine ⟨trivial, fun _ => ⟨trivial, fun _ => ⟨trivial, ?_⟩⟩⟩
          have same : ({ v with volume := volume, volumeLock := false } : Volume) = { v with volume := volume } := by
            rw [← answers.unlocked]
          exact same ▸ answers.quiet rfl rfl
      | registerNotification eventId =>
          by_cases change : eventId = rnVolumeChange
          · simp only [volumeTask, Volume.btAvHdlAvrcTgEvt, if_pos change]
            refine ⟨trivial, fun _ => ⟨trivial, fun _ => ⟨trivial, ?_⟩⟩⟩
            exact answers.registered (decide_eq_true change)
          · simp only [volumeTask, Volume.btAvHdlAvrcTgEvt, if_neg change]
            exact ⟨trivial, silent (decide_eq_false change) rfl⟩

/-- The volume behind a work queue that may lose any call is what the invoked callbacks saw. -/
theorem volume_answers {decode : Seen → VolumeMessage} {memory : Memory} {target : Running VolumeOp Volume}
    {journal : Journal} (reached : (runningMachine volumeTask decode memory).Reachable (target, journal)) :
    target.aborted = false ∧ journal.invoked <+: journal.accepted ∧
      (target.traffic.core.handling = none → Answers (journal.invoked.map decode) target.state) := by
  have admitted : (runningMachine volumeTask decode memory).Reaches
      (Admits decode (fun _ _ => true) fun _ _ => True) _ (target, journal) :=
    reached.mono fun before label _ other _ => ⟨trivial, by cases other <;> first | rfl | trivial⟩
  have attended := Attended.reachable reached
  have serves := Worker.serves_of_reachable volumeTask_handles trivial
    ⟨rfl, rfl, rfl, rfl, fun before message after split => absurd split.symm (by simp)⟩
    (running_refines_worker admitted)
  refine ⟨serves.running, ?_, ?_⟩
  · rw [← attended.accounted.order]
    exact List.prefix_append _ _
  · intro idle
    obtain ⟨ended, handled⟩ := attended.idle_view idle
    have kept := serves.keeps
    rw [ended, handled] at kept
    exact kept.2

/-- A registration after the volume 64 is answered with it. -/
theorem volume_answers_interim : ∃ (decode : Seen → VolumeMessage) (target : Running VolumeOp Volume)
    (journal : Journal), Answers (journal.invoked.map decode) target.state ∧
      journal.invoked.map decode = [.tg (.setAbsoluteVolumeCmd 64), .tg (.registerNotification rnVolumeChange)] ∧
      target.state.responses = [64] := by
  let decode : Seen → VolumeMessage := fun seen =>
    if seen.cb = some .btAvHdlAvrcTgEvt ∧ seen.event = .other 3 then
      .tg (.setAbsoluteVolumeCmd ((seen.param.getD []).headD 0))
    else if seen.cb = some .btAvHdlAvrcTgEvt ∧ seen.event = .other 4 then
      .tg (.registerNotification ((seen.param.getD []).headD 0))
    else .other
  have finished : (runningMachine volumeTask decode fun address => [64, 0x0d].getD address 0).run
      (runningMachine volumeTask decode fun address => [64, 0x0d].getD address 0).initial
      [.traffic (.dispatch ⟨.btAvHdlAvrcTgEvt, .other 3, some 0, 1, none⟩ true), .traffic (.send 0),
        .traffic (.dispatch ⟨.btAvHdlAvrcTgEvt, .other 4, some 1, 1, none⟩ true), .traffic (.send 0),
        .traffic .receive, .execute (), .execute (), .execute (), .traffic .handle,
        .traffic .receive, .execute (), .execute (), .traffic .handle] = some (_, _) := rfl
  have reached := Machine.run_reaches finished fun _ _ _ => trivial
  exact ⟨decode, _, _, (volume_answers reached).2.2 rfl, rfl, rfl⟩

end DesktopCube.Avrc
