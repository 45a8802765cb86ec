import DesktopCube.A2dp.Player
import DesktopCube.Work.Running

namespace DesktopCube.A2dp
open Transition BoundedQueue Work

/-- The work queue with its heap in front of the player. -/
abbrev queuedMachine (decode : Seen → PlayerMessage) (memory : Memory) :=
  runningMachine playerTask decode memory

/-- A queue that takes every call lets the player do what the callbacks saw at their calls. -/
theorem queued_player_follows {decode : Seen → PlayerMessage} {memory : Memory}
    {player : Running PlayerOp Player} {journal : Journal}
    (reached : (queuedMachine decode memory).Reaches (Admits decode stackPermits Worker.Progress.Delivered)
      (queuedMachine decode memory).initial (player, journal)) :
    player.aborted = false ∧ Player.Guarded player.ops player.state ∧
      (∀ call ∈ journal.returned, call.2 = true) ∧
      journal.returned.map Prod.fst =
        journal.invoked ++ player.traffic.core.messages.map (Msg.seen player.traffic.core.heap) ∧
      (player.traffic.core.handling = none → Described (journal.invoked.map decode) player.state) := by
  have follows := playerMachine_follows (running_refines_worker reached)
  have attended := Attended.reachable reached
  have taken : ∀ call ∈ journal.returned, call.2 = true := by
    have complete := congrArg List.length follows.complete
    rw [Attended.view_accepted decode attended.accounted, List.length_map] at complete
    have counted : (journal.returned.filter Prod.snd).length = journal.returned.length := by
      simpa [workerView, Journal.accepted] using complete.symm
    exact List.length_filter_eq_length_iff.mp counted
  refine ⟨follows.running, follows.keeps.now, taken, ?_, ?_⟩
  · rw [attended.accounted.order, Journal.accepted, List.filter_eq_self.mpr taken]
  · intro idle
    obtain ⟨ended, handled⟩ := attended.idle_view idle
    exact handled ▸ follows.idle ended

/-- The stack overwrites its parameter before the send, and the player still sees CONNECTING. -/
theorem queued_player_follows_connecting : ∃ (decode : Seen → PlayerMessage) (player : Running PlayerOp Player)
    (journal : Journal), Described (journal.invoked.map decode) player.state ∧
      journal.invoked.map decode = [.a2d (.connectionState .connecting)] ∧
      player.state.resources.txChan = .enabled := by
  let states : List ConnectionState := [.disconnected, .connecting, .connected, .disconnecting]
  let decode : Seen → PlayerMessage := fun seen =>
    if seen.cb = some .btAvHdlA2dEvt ∧ seen.event = .other 0 then
      .a2d (.connectionState (states.getD ((seen.param.getD []).headD 0).toNat .disconnected))
    else .other
  have finished : (queuedMachine decode fun address => [1, 0, 0, 0].getD address 0).checkedRun
      (Admits decode stackPermits Worker.Progress.Delivered)
      (queuedMachine decode fun address => [1, 0, 0, 0].getD address 0).initial
      [.traffic (.dispatch ⟨.btAvHdlA2dEvt, .other 0, some 0, 4, none⟩ true), .traffic (.store 0 0),
        .traffic (.send 0), .traffic .receive, .execute true, .execute true, .execute true, .traffic .handle] =
      some (_, _) := rfl
  exact ⟨decode, _, _, (queued_player_follows (Machine.checkedRun_reaches finished)).2.2.2.2 rfl, rfl, rfl⟩

end DesktopCube.A2dp
