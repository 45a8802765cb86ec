import DesktopCube.Library.Framing
import DesktopCube.Library.Interleaving
import DesktopCube.Library.Machine
import DesktopCube.Display.Uart
import Mathlib.Logic.Function.Basic
import Mathlib.Data.Fintype.Defs
import Mathlib.Data.Finset.Insert

namespace DesktopCube.Display
open Transition CMemory Framing Interleaving

/-- The display components that show a number. -/
inductive Component where
  | month
  | day
  | hour
  | minute
  | bat
  | temperature
  deriving DecidableEq, Repr

/-- The first string of each numeric command. -/
def Component.prefixString : Component → CString
  | .month => ⟨ascii "month.val=", by decide⟩
  | .day => ⟨ascii "day.val=", by decide⟩
  | .hour => ⟨ascii "hour.val=", by decide⟩
  | .minute => ⟨ascii "minute.val=", by decide⟩
  | .bat => ⟨ascii "bat.val=", by decide⟩
  | .temperature => ⟨ascii "temperature.val=", by decide⟩

/-- The display ends a command at three `0xFF` bytes. -/
def terminator : CString := ⟨[0xFF, 0xFF, 0xFF], by decide⟩

/-- The first and the last string of the weather command enclose its text. -/
def weatherString : CString := ⟨ascii "weather.txt=\"", by decide⟩

def closingString : CString := ⟨34 :: terminator.bytes, by decide⟩

inductive Command where
  | val (component : Component) (num : Int)
  | weather (text : CString)

/-- The three strings that the task passes to the UART for one command. -/
def Command.pieces : Command → List CString
  | .val component num => [component.prefixString, itoa num, terminator]
  | .weather text => [weatherString, text, closingString]

/-- The command without its terminator. -/
def Command.body : Command → List UInt8
  | .val component num => component.prefixString.bytes ++ (itoa num).bytes
  | .weather text => weatherString.bytes ++ text.bytes ++ [34]

/-- A task sends commands without a lock. -/
inductive Task where
  | rtcGetTime
  | adcGetVoltage
  | httpGetWeather
  deriving DecidableEq, Repr

instance : Fintype Task where
  elems := {.rtcGetTime, .adcGetVoltage, .httpGetWeather}
  complete task := by cases task <;> decide

/-- The next command follows from the number of commands that the task has begun. -/
def Task.command (task : Task) (begun : Nat) (num : Int) (text : CString) : Option Command :=
  match task with
  | .rtcGetTime =>
      match begun % 4 with
      | 0 => some (.val .month num)
      | 1 => some (.val .day num)
      | 2 => some (.val .hour num)
      | _ => some (.val .minute num)
  | .adcGetVoltage => some (.val .bat num)
  | .httpGetWeather =>
      match begun with
      | 0 => some (.weather text)
      | 1 => some (.val .temperature num)
      | _ => none

/-- Each task keeps the strings of its command that it has not yet sent. -/
structure Line where
  stream : List UInt8
  pending : Task → List CString
  issued : List (Task × Command)

def Line.start : Line := ⟨[], fun _ => [], []⟩

/-- The scheduler picks a task and the task reads the value of its next command. -/
structure Send where
  task : Task
  num : Int
  text : CString

/-- One call of `uart_send_string` sends the first of the pending strings. -/
def Line.send (line : Line) (task : Task) : List CString → Option Line
  | [] => none
  | piece :: rest =>
      match uartSendString (some piece) line.stream with
      | .ok stream => some { line with stream := stream, pending := Function.update line.pending task rest }
      | .error _ => none

/-- A task that has sent a whole command begins the next one. -/
def Line.step (line : Line) (label : Send) : Option Line :=
  match line.pending label.task with
  | [] =>
      match label.task.command (part line.issued label.task).length label.num label.text with
      | some command =>
          { line with issued := line.issued ++ [(label.task, command)] }.send label.task command.pieces
      | none => none
  | piece :: rest => line.send label.task (piece :: rest)

def displayMachine : Machine Line Send := ⟨Line.start, Line.step⟩

end DesktopCube.Display
