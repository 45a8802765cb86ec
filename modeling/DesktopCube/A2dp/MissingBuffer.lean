import DesktopCube.A2dp.DataCallback

namespace DesktopCube.A2dp
open Transition BoundedQueue RingBuffer Program Audio

/-- The data callback stays safe when it ends its call without interruption. -/
def SafeToEnd (d : Device) : Prop :=
  ∀ count after, deviceMachine.run d (List.replicate count .writeRingbuf) = some after → CallbackSafe after

namespace SafeToEnd

variable {d : Device}

theorem now (safe : SafeToEnd d) : CallbackSafe d := safe 0 d rfl

theorem next {session : Audio.Session} (safe : SafeToEnd d)
    (taken : d.session.writeRingbuf = some session) : CallbackSafe { d with session := session } := by
  apply safe 1
  change (d.session.writeRingbuf.map _).bind some = _
  rw [taken]
  rfl

end SafeToEnd

namespace Guarded

variable {d next : Device} {label : DeviceLabel}

end Guarded

instance (s : Audio.Session) : Decidable (NeedsRingbuf s) := inferInstanceAs (Decidable (_ ∨ _))

instance (s : Audio.Session) : Decidable (NeedsSemaphore s) := inferInstanceAs (Decidable (_ ∨ _))

instance (s : Audio.Session) : Decidable (Returning s) := inferInstanceAs (Decidable (_ ∨ _))

instance (d : Device) : Decidable (MayStartUp d) := inferInstanceAs (Decidable (_ ∨ _))

instance (d : Device) (ops : List Op) : Decidable (Spares d ops) :=
  match ops with
  | .prefetching :: _ => inferInstanceAs (Decidable (MayStartUp d))
  | .ringbufferDelete :: _ => inferInstanceAs (Decidable (¬ NeedsRingbuf d.session))
  | .semaphoreDelete :: _ => inferInstanceAs (Decidable (¬ NeedsSemaphore d.session))
  | [] | .i2sNewChannel :: _ | .i2sChannelInitStdMode :: _ | .i2sChannelEnable :: _
  | .i2sChannelDisable :: _ | .i2sDelChannel :: _ | .semaphoreCreate :: _ | .ringbufferCreate :: _
  | .taskCreate :: _ | .taskDelete :: _ => isTrue trivial

instance (d : Device) (label : DeviceLabel) : Decidable (Careful d label) :=
  match label with
  | .call _ => inferInstanceAs (Decidable (d.connection.resources.ringbuf.usable = true))
  | .connection (.execute _) => inferInstanceAs (Decidable (Spares d d.connection.ops))
  | .connection (.report _) | .connection .other | .connection .receive | .writeRingbuf
  | .btI2sTaskHandler _ => isTrue trivial

end DesktopCube.A2dp
