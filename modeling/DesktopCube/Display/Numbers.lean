import DesktopCube.Display.Commands
import DesktopCube.Library.Calendar

namespace DesktopCube.Display
open CMemory Calendar

/-- The time zone `CST-8` is eight hours ahead of universal time. -/
def localtimeR (now : Int) : Tm := localtime (8 * 3600) now

/-- The percentage by the table of battery voltages, where the divider halves the voltage. -/
def batPercent (voltage : Int) : Int :=
  let batVoltage := voltage * 2
  if 4150 ≤ batVoltage then 100
  else if 4080 ≤ batVoltage then 90
  else if 3970 ≤ batVoltage then 80
  else if 3900 ≤ batVoltage then 70
  else if 3840 ≤ batVoltage then 60
  else if 3790 ≤ batVoltage then 50
  else if 3760 ≤ batVoltage then 40
  else if 3730 ≤ batVoltage then 30
  else if 3710 ≤ batVoltage then 20
  else if 3650 ≤ batVoltage then 10
  else 0

/-- The three calls that send one number to the display. -/
def sendVal (component : Component) (num : Int) (stream : List UInt8) : Except Fault (List UInt8) := do
  let stream ← uartSendString (some component.prefixString) stream
  let stream ← uartSendNum num stream
  uartSendString (some terminator) stream

/-- One round of `Task_RTCGetTime`. -/
def taskRtcGetTime (now : Int) (stream : List UInt8) : Except Fault (List UInt8) := do
  let timeinfo := localtimeR now
  let stream ← sendVal .month (timeinfo.tmMon + 1) stream
  let stream ← sendVal .day timeinfo.tmMday stream
  let stream ← sendVal .hour timeinfo.tmHour stream
  sendVal .minute timeinfo.tmMin stream

/-- One round of `Task_ADCGetVoltage`, which sends only calibrated voltages. -/
def taskAdcGetVoltage (doCalibration1Chan0 : Bool) (voltage : Int) (stream : List UInt8) :
    Except Fault (List UInt8) :=
  if doCalibration1Chan0 then sendVal .bat (batPercent voltage) stream else .ok stream

/-- The calls of `uart_send_num` with the time, the voltage or the member from which they get their number. -/
inductive NumCall where
  | month (now : Int)
  | day (now : Int)
  | hour (now : Int)
  | minute (now : Int)
  | bat (voltage : Int)
  | temperature (valueint : Int)

def NumCall.num : NumCall → Int
  | .month now => (localtimeR now).tmMon + 1
  | .day now => (localtimeR now).tmMday
  | .hour now => (localtimeR now).tmHour
  | .minute now => (localtimeR now).tmMin
  | .bat voltage => batPercent voltage
  | .temperature valueint => valueint

/-- The text with its terminating zero fits and exactly the text reaches the UART. -/
def SentExactly (num : Int) : Prop :=
  (itoa num).bytes.length + 1 ≤ numStringSize ∧
    ∀ stream, uartSendNum num stream = .ok (uartWriteBytes stream (Decimal.intText num))

/-- The percentage is below one hundred or the temperature has two characters. -/
def NumCall.Fits : NumCall → Prop
  | .bat voltage => voltage * 2 < 4150
  | .temperature valueint => -9 ≤ valueint ∧ valueint ≤ 99
  | .month _ | .day _ | .hour _ | .minute _ => True

theorem itoa_fits_iff (num : Int) :
    (itoa num).bytes.length + 1 ≤ numStringSize ↔ -9 ≤ num ∧ num ≤ 99 := by
  have length := Decimal.intText_length_le_iff num 1 Nat.one_pos
  rw [itoa, numStringSize, Nat.succ_le_succ_iff, length]
  omega

theorem sentExactly_iff_fits (num : Int) : SentExactly num ↔ -9 ≤ num ∧ num ≤ 99 := by
  rw [← itoa_fits_iff]
  constructor
  · exact fun sent => sent.1
  · intro fits
    refine ⟨fits, fun stream => ?_⟩
    rw [uartSendNum, if_pos fits]
    rfl

/-- Only a full battery has a percentage of three digits. -/
theorem batPercent_range (voltage : Int) :
    0 ≤ batPercent voltage ∧ (batPercent voltage ≤ 99 ↔ voltage * 2 < 4150) := by
  by_cases full : 4150 ≤ voltage * 2
  · have percent : batPercent voltage = 100 := if_pos full
    omega
  · have table : 0 ≤ batPercent voltage ∧ batPercent voltage ≤ 90 := by
      simp only [batPercent, if_neg full]
      repeat (first | omega | split)
    omega

/-- The calendar never produces a number of three digits. -/
theorem localtimeR_range (now : Int) :
    (0 ≤ (localtimeR now).tmMin ∧ (localtimeR now).tmMin ≤ 59) ∧
      (0 ≤ (localtimeR now).tmHour ∧ (localtimeR now).tmHour ≤ 23) ∧
      (1 ≤ (localtimeR now).tmMday ∧ (localtimeR now).tmMday ≤ 31) ∧
      1 ≤ (localtimeR now).tmMon + 1 ∧ (localtimeR now).tmMon + 1 ≤ 12 := by
  have valid : (localtimeR now).Valid := localtime_valid (8 * 3600) now
  have month := valid.tmMon
  exact ⟨valid.tmMin, valid.tmHour, valid.tmMday, by omega, by omega⟩

/-- A number is sent exactly unless the battery is full or the temperature has three characters. -/
theorem sentExactly_iff (call : NumCall) : SentExactly call.num ↔ call.Fits := by
  rw [sentExactly_iff_fits]
  cases call with
  | month now | day now | hour now | minute now =>
      obtain ⟨minute, hour, day, month⟩ := localtimeR_range now
      refine iff_of_true ?_ trivial
      dsimp only [NumCall.num]
      omega
  | bat voltage =>
      obtain ⟨positive, small⟩ := batPercent_range voltage
      rw [NumCall.num, NumCall.Fits, ← small]
      omega
  | temperature valueint => rfl

/-- A full battery has a percentage of three digits. -/
theorem not_sentExactly : ¬ ∀ call : NumCall, SentExactly call.num := by
  intro sent
  have fits := (sent (.bat 2075)).1
  exact absurd fits (by decide)

/-- A number that fits leaves one whole command on the stream and any other overruns its buffer. -/
theorem sendVal_eq (component : Component) (num : Int) (stream : List UInt8) :
    sendVal component num stream =
      if -9 ≤ num ∧ num ≤ 99 then .ok (stream ++ ((Command.val component num).body ++ terminator.bytes))
      else .error .outOfBounds := by
  unfold sendVal uartSendNum
  simp only [itoa_fits_iff]
  split
  · show Except.ok (stream ++ component.prefixString.bytes ++ (itoa num).bytes ++ terminator.bytes) = _
    rw [Command.body, List.append_assoc, List.append_assoc, ← List.append_assoc component.prefixString.bytes]
  · rfl

/-- Every time of the clock is sent as four whole commands. -/
theorem taskRtcGetTime_ok (now : Int) (stream : List UInt8) :
    taskRtcGetTime now stream = .ok (stream ++
      [Command.val .month (NumCall.month now).num, .val .day (NumCall.day now).num,
        .val .hour (NumCall.hour now).num, .val .minute (NumCall.minute now).num].flatMap
          fun command => command.body ++ terminator.bytes) := by
  obtain ⟨minute, hour, day, month⟩ := localtimeR_range now
  have sent (component : Component) (num : Int) (low : -9 ≤ num) (high : num ≤ 99) (stream : List UInt8) :
      sendVal component num stream =
        .ok (stream ++ ((Command.val component num).body ++ terminator.bytes)) := by
    rw [sendVal_eq, if_pos ⟨low, high⟩]
  simp only [taskRtcGetTime, bind_eq_ok]
  refine ⟨_, sent .month _ (by omega) (by omega) stream, _, sent .day _ (by omega) (by omega) _,
    _, sent .hour _ (by omega) (by omega) _, ?_⟩
  rw [sent .minute _ (by omega) (by omega)]
  simp only [List.flatMap_cons, List.flatMap_nil, List.append_nil, List.append_assoc, NumCall.num]

/-- A voltage is sent as one whole command exactly when the battery is not full. -/
theorem taskAdcGetVoltage_eq (voltage : Int) (stream : List UInt8) :
    taskAdcGetVoltage true voltage stream =
      if voltage * 2 < 4150 then
        .ok (stream ++ ((Command.val .bat (batPercent voltage)).body ++ terminator.bytes))
      else .error .outOfBounds := by
  obtain ⟨positive, small⟩ := batPercent_range voltage
  have fits : -9 ≤ batPercent voltage ∧ batPercent voltage ≤ 99 ↔ voltage * 2 < 4150 := by
    rw [← small]
    omega
  show sendVal .bat (batPercent voltage) stream = _
  simp only [sendVal_eq, fits]

end DesktopCube.Display
