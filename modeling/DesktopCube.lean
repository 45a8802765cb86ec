import DesktopCube.A2dp.MissingBuffer
import DesktopCube.A2dp.Pairing
import DesktopCube.A2dp.Teardown
import DesktopCube.Audio.Delivery
import DesktopCube.Audio.Hysteresis
import DesktopCube.Audio.Stall
import DesktopCube.Avrc.Registration
import DesktopCube.Avrc.VolumeTask
import DesktopCube.Display.Decoding
import DesktopCube.Display.Numbers
import DesktopCube.Display.Tearing
import DesktopCube.Http.Accumulation
import DesktopCube.Http.Interference
import DesktopCube.Http.Response
import DesktopCube.Work.Fifo
import DesktopCube.Work.Leak
import DesktopCube.A2dp.Player
import DesktopCube.Avrc.Tokens
import DesktopCube.Audio.Flow
import DesktopCube.Http.Clock
import DesktopCube.Http.OutputBuffer
import DesktopCube.Work.Drain
import DesktopCube.Audio.Refill
import DesktopCube.Boot.StartUp
import DesktopCube.Display.Rounds
import DesktopCube.A2dp.Queued
import DesktopCube.A2dp.Sessions
import DesktopCube.Audio.WaitFree
import DesktopCube.Avrc.Volume
import DesktopCube.Http.Served
