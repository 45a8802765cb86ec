import DesktopCube.Display.Commands

namespace DesktopCube.Display
open Transition CMemory Framing Interleaving

/-- The stream of whole commands ends each body with three `0xFF` bytes. -/
def encode (commands : List Command) : List UInt8 := join 0xFF 3 (commands.map Command.body)

/-- No task is in the middle of a command. -/
def Line.Quiet (line : Line) : Prop := ∀ task, line.pending task = []

/-- A quiet stream splits into an interleaving of the commands that each task has issued. -/
def WholeCommands (line : Line) : Prop :=
  line.Quiet → ∃ commands, line.stream = encode commands ∧
    split 0xFF 3 line.stream = (commands.map Command.body, []) ∧
    Interleaves commands (part line.issued)

/-- The text contains no quote and no `0xFF` byte. -/
def CleanText (text : CString) : Prop := (34 : UInt8) ∉ text.bytes ∧ (0xFF : UInt8) ∉ text.bytes

/-- No other task is in the middle of a command when a task sends. -/
def Exclusive (line : Line) (label : Send) : Prop :=
  ∀ task, task ≠ label.task → line.pending task = []

instance (text : CString) : Decidable (CleanText text) :=
  inferInstanceAs (Decidable (_ ∧ _))

instance (line : Line) (label : Send) : Decidable (Exclusive line label) :=
  inferInstanceAs (Decidable (∀ task, task ≠ label.task → line.pending task = []))

/-- The strings of a command are its body and its terminator. -/
theorem Command.flatMap_pieces (command : Command) :
    command.pieces.flatMap CString.bytes = command.body ++ List.replicate 3 0xFF := by
  cases command with
  | val component num =>
      simp only [Command.pieces, Command.body, List.flatMap_cons, List.flatMap_nil, List.append_nil,
        List.append_assoc]
      rfl
  | weather text =>
      simp only [Command.pieces, Command.body, List.flatMap_cons, List.flatMap_nil, List.append_nil,
        List.append_assoc]
      rfl

theorem Command.body_ne_nil (command : Command) : command.body ≠ [] := by
  cases command with
  | val component num => cases component <;> exact List.cons_ne_nil _ _
  | weather text => exact List.cons_ne_nil _ _

/-- Only the text of the weather can put a `0xFF` byte into a body. -/
theorem Task.command_body_clean {task : Task} {begun : Nat} {num : Int} {text : CString}
    {command : Command} (clean : (0xFF : UInt8) ∉ text.bytes)
    (issues : task.command begun num text = some command) : (0xFF : UInt8) ∉ command.body := by
  have number (component : Component) : (0xFF : UInt8) ∉ (Command.val component num).body := by
    rw [Command.body, List.mem_append, not_or]
    exact ⟨by cases component <;> decide, Decimal.intText_not_mem num 0xFF (by decide) (by decide)⟩
  have words : (0xFF : UInt8) ∉ (Command.weather text).body := by
    simp only [Command.body, List.mem_append, not_or]
    exact ⟨⟨by decide, clean⟩, by decide⟩
  unfold Task.command at issues
  split at issues
  · split at issues <;> cases issues <;> apply number
  · cases issues
    exact number .bat
  · split at issues
    · cases issues
      exact words
    · cases issues
      exact number .temperature
    · cases issues

/-- The first of the pending strings has moved to the stream. -/
def Line.sent (line : Line) (task : Task) (piece : CString) (rest : List CString) : Line :=
  { line with
    stream := line.stream ++ piece.bytes
    pending := Function.update line.pending task rest }

/-- A task either continues its command or issues the next one. -/
theorem Line.step_cases {line next : Line} {label : Send} (taken : line.step label = some next) :
    (∃ piece rest, line.pending label.task = piece :: rest ∧ next = line.sent label.task piece rest) ∨
      line.pending label.task = [] ∧ ∃ begun command piece rest,
        label.task.command begun label.num label.text = some command ∧
        command.pieces = piece :: rest ∧
        next = { line with issued := line.issued ++ [(label.task, command)] }.sent label.task piece rest := by
  unfold Line.step at taken
  split at taken
  · rename_i quiet
    split at taken
    · rename_i command issues
      have sends : ∃ piece rest, command.pieces = piece :: rest := by
        cases command <;> exact ⟨_, _, rfl⟩
      obtain ⟨piece, rest, pieces⟩ := sends
      rw [pieces] at taken
      cases taken
      exact .inr ⟨quiet, _, command, piece, rest, issues, pieces, rfl⟩
    · cases taken
  · rename_i piece rest pending
    cases taken
    exact .inl ⟨piece, rest, pending, rfl⟩

/-- At most one task is in the middle of a command and the stream only lacks its rest. -/
structure Untorn (line : Line) : Prop where
  sole : ∃ task, (∀ other, other ≠ task → line.pending other = []) ∧
    line.stream ++ (line.pending task).flatMap CString.bytes = encode (line.issued.map Prod.snd)
  clean : ∀ command ∈ line.issued.map Prod.snd, (0xFF : UInt8) ∉ command.body

namespace Untorn

variable {line next : Line} {label : Send}

theorem start : Untorn Line.start := ⟨⟨.rtcGetTime, fun _ _ => rfl, rfl⟩, nofun⟩

theorem encode_append (commands : List Command) (command : Command) :
    encode (commands ++ [command]) = encode commands ++ command.pieces.flatMap CString.bytes := by
  rw [command.flatMap_pieces]
  simp [encode, join]

/-- The sender is the only task that can still have strings. -/
theorem exclusive_stream (untorn : Untorn line) (exclusive : Exclusive line label) :
    line.stream ++ (line.pending label.task).flatMap CString.bytes =
      encode (line.issued.map Prod.snd) := by
  obtain ⟨task, others, stream⟩ := untorn.sole
  by_cases same : label.task = task
  · rw [same]
    exact stream
  · rw [others _ same]
    rw [exclusive task (Ne.symm same)] at stream
    exact stream

/-- One string moves from the pending ones of the sole sender to the stream. -/
theorem sent {task : Task} {piece : CString} {rest : List CString}
    (others : ∀ other, other ≠ task → line.pending other = [])
    (stream : line.stream ++ (piece :: rest).flatMap CString.bytes =
      encode (line.issued.map Prod.snd))
    (clean : ∀ command ∈ line.issued.map Prod.snd, (0xFF : UInt8) ∉ command.body) :
    Untorn (line.sent task piece rest) := by
  refine ⟨⟨task, fun other different => ?_, ?_⟩, clean⟩
  · simp only [Line.sent, Function.update_of_ne different]
    exact others other different
  · simp only [Line.sent, Function.update_self]
    rw [← stream, List.flatMap_cons, List.append_assoc]

theorem step (untorn : Untorn line) (clean : CleanText label.text)
    (exclusive : Exclusive line label) (taken : line.step label = some next) : Untorn next := by
  have stream := untorn.exclusive_stream exclusive
  rcases Line.step_cases taken with ⟨piece, rest, pending, rfl⟩ |
    ⟨quiet, begun, command, piece, rest, issues, pieces, rfl⟩
  · rw [pending] at stream
    exact sent exclusive stream untorn.clean
  · rw [quiet, List.flatMap_nil, List.append_nil] at stream
    have issued : (line.issued ++ [(label.task, command)]).map Prod.snd =
        line.issued.map Prod.snd ++ [command] := List.map_append
    have others : ∀ other, other ≠ label.task →
        { line with issued := line.issued ++ [(label.task, command)] }.pending other = [] := exclusive
    apply sent others
    · simp only [issued, encode_append, pieces, stream]
    · simp only [issued, List.mem_append, List.mem_singleton]
      rintro other (member | rfl)
      · exact untorn.clean other member
      · exact Task.command_body_clean clean.2 issues

theorem reaches (reached : displayMachine.Reaches
    (fun line label => CleanText label.text ∧ Exclusive line label) Line.start line) : Untorn line :=
  reached.invariant Untorn start fun _ _ _ untorn meets taken => untorn.step meets.1 meets.2 taken

theorem wholeCommands (untorn : Untorn line) : WholeCommands line := by
  intro quiet
  obtain ⟨task, _, stream⟩ := untorn.sole
  rw [quiet task, List.flatMap_nil, List.append_nil] at stream
  refine ⟨_, stream, ?_, interleaves_part line.issued⟩
  rw [stream]
  apply split_join (by decide)
  intro body member
  obtain ⟨command, issued, rfl⟩ := List.mem_map.mp member
  exact untorn.clean command issued

end Untorn

/-- Every run without an overlap of two commands keeps the commands whole. -/
theorem wholeCommands_of_exclusive {line : Line} (reached : displayMachine.Reaches
    (fun line label => CleanText label.text ∧ Exclusive line label) Line.start line) :
    WholeCommands line :=
  (Untorn.reaches reached).wholeCommands

/-- Each of the three tasks sends a command while the other two wait. -/
theorem wholeCommands_of_exclusive_tasks : ∃ line : Line, line.Quiet ∧
    line.stream = ascii "month.val=10" ++ [0xFF, 0xFF, 0xFF] ++ ascii "weather.txt=\"fog\"" ++ [0xFF, 0xFF, 0xFF] ++
      ascii "bat.val=87" ++ [0xFF, 0xFF, 0xFF] ∧ WholeCommands line := by
  let labels : List Send := List.replicate 3 ⟨.rtcGetTime, 10, ⟨[], nofun⟩⟩ ++
    List.replicate 3 ⟨.httpGetWeather, 0, ⟨ascii "fog", by decide⟩⟩ ++
    List.replicate 3 ⟨.adcGetVoltage, 87, ⟨[], nofun⟩⟩
  have finished : displayMachine.checkedRun
      (fun line label => CleanText label.text ∧ Exclusive line label) Line.start labels = some _ := rfl
  refine ⟨_, ?_, ?_, wholeCommands_of_exclusive (Machine.checkedRun_reaches finished)⟩
  · intro task
    cases task <;> rfl
  · rfl

/-- The clock and the battery overlap and leave an empty command on the stream. -/
theorem not_wholeCommands : ¬ ∀ line, displayMachine.Reaches
    (fun _ label => CleanText label.text) Line.start line → WholeCommands line := by
  intro whole
  let labels : List Send := [.rtcGetTime, .adcGetVoltage, .rtcGetTime, .adcGetVoltage, .rtcGetTime,
    .adcGetVoltage].map fun task => ⟨task, 10, ⟨[], nofun⟩⟩
  obtain ⟨line, finished⟩ : ∃ line, displayMachine.run Line.start labels = some line := ⟨_, rfl⟩
  have reached : displayMachine.Reaches (fun _ label => CleanText label.text) Line.start line := by
    apply Machine.run_reaches finished
    intro _ label member
    obtain ⟨task, _, rfl⟩ := List.mem_map.mp member
    exact ⟨nofun, nofun⟩
  have stream : line.stream = ascii "month.val=bat.val=1010" ++ [0xFF, 0xFF, 0xFF, 0xFF, 0xFF, 0xFF] := by
    cases finished
    rfl
  have quiet : line.Quiet := by
    intro task
    cases finished
    cases task <;> rfl
  obtain ⟨commands, _, frames, _⟩ := whole line reached quiet
  rw [stream] at frames
  have empty : [] ∈ commands.map Command.body := by
    have same : _ = commands.map Command.body := congrArg Prod.fst frames
    rw [← same]
    decide
  obtain ⟨command, _, body⟩ := List.mem_map.mp empty
  exact command.body_ne_nil body

end DesktopCube.Display
