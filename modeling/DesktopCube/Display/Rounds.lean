import DesktopCube.Display.Decoding
import DesktopCube.Display.Numbers
import DesktopCube.Http.Response

namespace DesktopCube.Display
open CMemory Framing Http

/-- One round of a task with the time, the voltage or the members of the weather answer. -/
inductive Round where
  | rtcGetTime (now : Int)
  | adcGetVoltage (doCalibration1Chan0 : Bool) (voltage : Int)
  | httpGetWeather (text : CString) (temp : Int)

namespace Round

/-- A round calls the UART with its own numbers and its own buffers. -/
def run (stream : List UInt8) : Round → Except Fault (List UInt8)
  | .rtcGetTime now => taskRtcGetTime now stream
  | .adcGetVoltage doCalibration1Chan0 voltage => taskAdcGetVoltage doCalibration1Chan0 voltage stream
  | .httpGetWeather text temp => sendWeather (some text) temp stream

/-- The commands that a round means to send. -/
def commands : Round → List Command
  | .rtcGetTime now =>
      [.val .month ((localtimeR now).tmMon + 1), .val .day (localtimeR now).tmMday,
        .val .hour (localtimeR now).tmHour, .val .minute (localtimeR now).tmMin]
  | .adcGetVoltage doCalibration1Chan0 voltage =>
      if doCalibration1Chan0 then [.val .bat (batPercent voltage)] else []
  | .httpGetWeather text temp => [.weather text, .val .temperature temp]

/-- The battery is not full or not measured and the temperature has two characters. -/
def Fits : Round → Prop
  | .rtcGetTime _ => True
  | .adcGetVoltage doCalibration1Chan0 voltage => doCalibration1Chan0 = true → voltage * 2 < 4150
  | .httpGetWeather _ temp => -9 ≤ temp ∧ temp ≤ 99

/-- The bytes of commands that are sent whole. -/
theorem encode_eq_flatMap (commands : List Command) : encode commands = commands.flatMap commandBytes := by
  rw [encode, join, List.flatMap_map]
  rfl

/-- A round either sends its commands whole or overruns the buffer of a number. -/
theorem run_eq_ok_iff (round : Round) (stream next : List UInt8) :
    round.run stream = .ok next ↔ round.Fits ∧ next = stream ++ encode round.commands := by
  rw [encode_eq_flatMap]
  cases round with
  | rtcGetTime now =>
      rw [run, taskRtcGetTime_ok, Except.ok.injEq, eq_comm]
      exact (and_iff_right trivial).symm
  | adcGetVoltage doCalibration1Chan0 voltage =>
      cases doCalibration1Chan0 with
      | false => simp [run, taskAdcGetVoltage, commands, Fits, eq_comm]
      | true =>
          rw [run, taskAdcGetVoltage_eq, commands, if_pos rfl, List.flatMap_singleton, Fits]
          split
          · rename_i low
            rw [Except.ok.injEq, eq_comm]
            exact (and_iff_right fun _ => low).symm
          · rename_i full
            apply iff_of_false
            · intro sent
              cases sent
            · exact fun fits => full (fits.1 rfl)
  | httpGetWeather text temp =>
      rw [run, sendWeather_eq_ok, itoa_fits_iff]
      simp [commands, Fits, List.append_assoc]

/-- Rounds one after another succeed exactly when each of them does. -/
theorem foldlM_eq_ok_iff (rounds : List Round) (stream next : List UInt8) :
    rounds.foldlM run stream = .ok next ↔
      (∀ round ∈ rounds, round.Fits) ∧ next = stream ++ encode (rounds.flatMap commands) := by
  induction rounds generalizing stream with
  | nil =>
      show Except.ok stream = .ok next ↔ _
      rw [Except.ok.injEq, List.flatMap_nil, encode_eq_flatMap, List.flatMap_nil, List.append_nil, eq_comm]
      simp
  | cons round rounds ih =>
      rw [List.foldlM_cons, bind_eq_ok]
      simp only [run_eq_ok_iff, ih, List.forall_mem_cons, List.flatMap_cons, encode_eq_flatMap,
        List.flatMap_append]
      constructor
      · rintro ⟨_, ⟨fits, rfl⟩, rest, rfl⟩
        exact ⟨⟨fits, rest⟩, List.append_assoc _ _ _⟩
      · rintro ⟨⟨fits, rest⟩, rfl⟩
        exact ⟨_, ⟨fits, rfl⟩, rest, (List.append_assoc _ _ _).symm⟩

end Round

/-- Delimited texts are read back with the numbers around them. -/
theorem decode_encode (commands : List Command)
    (delimited : ∀ text, Command.weather text ∈ commands → Delimited text) :
    decode (encode commands) = some (commands.map Command.reading) := by
  have whole : ∀ command ∈ commands, (split 0xFF 3 command.body).1 = [] := by
    intro command member
    rw [split_body]
    rintro text rfl
    exact (delimited text member).2
  rw [decode, split_encode_of_whole commands whole, if_pos rfl, mapM_eq_some_iff, List.map_map, List.map_map,
    List.map_inj_left]
  intro command member
  cases command with
  | val component num => exact parse_val component num
  | weather text =>
      show parse _ = _
      rw [parse_weather, if_neg (delimited text member).1]
      rfl

/-- The display reads what the rounds measured and received. -/
theorem Round.decode_run {rounds : List Round} {stream : List UInt8}
    (ran : rounds.foldlM Round.run [] = .ok stream)
    (delimited : ∀ text temp, Round.httpGetWeather text temp ∈ rounds → Delimited text) :
    decode stream = some ((rounds.flatMap Round.commands).map Command.reading) := by
  obtain ⟨_, rfl⟩ := (Round.foldlM_eq_ok_iff rounds [] stream).mp ran
  rw [List.nil_append]
  apply decode_encode
  intro text member
  obtain ⟨round, listed, sent⟩ := List.mem_flatMap.mp member
  cases round with
  | rtcGetTime now => simp [Round.commands] at sent
  | adcGetVoltage doCalibration1Chan0 voltage => cases doCalibration1Chan0 <;> simp [Round.commands] at sent
  | httpGetWeather other temp =>
      have same : text = other := by simpa [Round.commands] using sent
      exact delimited text temp (same ▸ listed)

/-- The rounds run to their end exactly when every number fits, and the display then reads what they measured. -/
theorem rounds_decoded (rounds : List Round) :
    ((∃ stream, rounds.foldlM Round.run [] = .ok stream) ↔ ∀ round ∈ rounds, round.Fits) ∧
      ∀ stream, rounds.foldlM Round.run [] = .ok stream →
        (∀ text temp, Round.httpGetWeather text temp ∈ rounds → Delimited text) →
          decode stream = some ((rounds.flatMap Round.commands).map Command.reading) := by
  refine ⟨?_, fun _ => Round.decode_run⟩
  simp only [Round.foldlM_eq_ok_iff]
  exact ⟨fun ⟨_, fits, _⟩ => fits, fun fits => ⟨_, fits, rfl⟩⟩

/-- The start of the year 1970, a battery, a task without calibration and a weather below zero. -/
theorem rounds_decoded_fog : ∃ stream, decode stream = some
    [.val (ascii "month") 1, .val (ascii "day") 1, .val (ascii "hour") 8, .val (ascii "minute") 0,
      .val (ascii "bat") 50, .txt (ascii "weather") (ascii "fog"), .val (ascii "temperature") (-5)] := by
  have rounds := rounds_decoded
    [.rtcGetTime 0, .adcGetVoltage true 1900, .adcGetVoltage false 0, .httpGetWeather ⟨ascii "fog", by decide⟩ (-5)]
  obtain ⟨stream, ran⟩ := rounds.1.mpr (by simp [Round.Fits])
  refine ⟨stream, (rounds.2 stream ran ?_).trans rfl⟩
  intro text temp member
  simp only [List.mem_cons, reduceCtorEq, false_or, List.not_mem_nil, or_false, Round.httpGetWeather.injEq] at member
  rw [member.1]
  exact ⟨by decide, by decide⟩

end DesktopCube.Display
