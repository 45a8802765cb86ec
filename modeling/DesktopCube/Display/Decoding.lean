import DesktopCube.Display.Tearing

namespace DesktopCube.Display
open CMemory Framing

/-- Each update passes its strings to `uart_send_string` one after another. -/
def issueCommand (stream : List UInt8) (command : Command) : Except Fault (List UInt8) :=
  command.pieces.foldlM (fun sent piece => uartSendString (some piece) sent) stream

def issue (commands : List Command) : Except Fault (List UInt8) := commands.foldlM issueCommand []

/-- The parser reads the name of a component and its value. -/
inductive Reading where
  | val (name : List UInt8) (num : Int)
  | txt (name : List UInt8) (text : List UInt8)
  deriving DecidableEq, Repr

/-- The bytes after an expected start. -/
def after (expected bytes : List UInt8) : Option (List UInt8) :=
  if expected.isPrefixOf bytes then some (bytes.drop expected.length) else none

/-- A part is a name with a decimal value or with a text up to the next quote. -/
def parse (bytes : List UInt8) : Option Reading :=
  let name := bytes.takeWhile (· ≠ 46)
  let suffix := bytes.dropWhile (· ≠ 46)
  match after (ascii ".val=") suffix with
  | some digits => (Decimal.readInt digits).map (Reading.val name)
  | none =>
      match after (ascii ".txt=\"") suffix with
      | some quoted =>
          if quoted.dropWhile (· ≠ 34) = [34] then some (.txt name (quoted.takeWhile (· ≠ 34)))
          else none
      | none => none

/-- The parser splits the stream at the terminators and reads every part. -/
def decode (stream : List UInt8) : Option (List Reading) :=
  if (split 0xFF 3 stream).2 = [] then (split 0xFF 3 stream).1.mapM parse else none

def Component.name : Component → List UInt8
  | .month => ascii "month"
  | .day => ascii "day"
  | .hour => ascii "hour"
  | .minute => ascii "minute"
  | .bat => ascii "bat"
  | .temperature => ascii "temperature"

/-- The name and the value that an update shows. -/
def Command.reading : Command → Reading
  | .val component num => .val component.name num
  | .weather text => .txt (ascii "weather") text.bytes

/-- A text without a quote and without a terminator stays between its quotes. -/
def Delimited (text : CString) : Prop :=
  (34 : UInt8) ∉ text.bytes ∧ ¬ List.replicate 3 (0xFF : UInt8) <:+: text.bytes

theorem issueCommand_ok (stream : List UInt8) (command : Command) :
    issueCommand stream command = .ok (stream ++ command.body ++ List.replicate 3 0xFF) := by
  have sent : ∀ pieces : List CString, ∀ stream,
      pieces.foldlM (fun sent piece => uartSendString (some piece) sent) stream =
        .ok (stream ++ pieces.flatMap CString.bytes) := by
    intro pieces
    induction pieces with
    | nil => intro stream; rw [List.flatMap_nil, List.append_nil]; rfl
    | cons piece pieces ih =>
        intro stream
        rw [List.foldlM_cons, List.flatMap_cons, ← List.append_assoc]
        exact ih (stream ++ piece.bytes)
  rw [issueCommand, sent, command.flatMap_pieces, List.append_assoc]

theorem encode_cons (command : Command) (commands : List Command) :
    encode (command :: commands) = command.body ++ List.replicate 3 0xFF ++ encode commands := rfl

/-- Updates that are issued one after another leave the stream of whole commands. -/
theorem issue_ok (commands : List Command) : issue commands = .ok (encode commands) := by
  have issued : ∀ stream, commands.foldlM issueCommand stream = .ok (stream ++ encode commands) := by
    induction commands with
    | nil => intro stream; exact congrArg Except.ok (List.append_nil stream).symm
    | cons command commands ih =>
        intro stream
        rw [List.foldlM_cons, issueCommand_ok, encode_cons]
        show commands.foldlM issueCommand _ = _
        rw [ih, List.append_assoc, List.append_assoc, List.append_assoc]
  exact issued []

section Parts

theorem after_append (expected rest : List UInt8) : after expected (expected ++ rest) = some rest := by
  rw [after, if_pos (by simp), List.drop_left]

/-- The part before the first mark and the part from it on. -/
theorem span_append (mark : UInt8) (start rest : List UInt8) (clean : mark ∉ start) :
    (start ++ mark :: rest).takeWhile (· ≠ mark) = start ∧
      (start ++ mark :: rest).dropWhile (· ≠ mark) = mark :: rest := by
  have other : ∀ byte ∈ start, decide (byte ≠ mark) = true := by
    intro byte member
    rw [decide_eq_true_iff]
    rintro rfl
    exact clean member
  rw [List.takeWhile_append_of_pos other, List.dropWhile_append_of_pos other]
  simp

theorem Component.prefixString_eq (component : Component) :
    component.prefixString.bytes = component.name ++ ascii ".val=" ∧ (46 : UInt8) ∉ component.name := by
  cases component <;> decide

/-- The part of a number is read as it was written. -/
theorem parse_val (component : Component) (num : Int) :
    parse (Command.val component num).body = some (.val component.name num) := by
  obtain ⟨bytes, clean⟩ := component.prefixString_eq
  have body : (Command.val component num).body =
      component.name ++ 46 :: (ascii "val=" ++ Decimal.intText num) := by
    rw [Command.body, bytes, List.append_assoc]
    rfl
  obtain ⟨name, suffix⟩ := span_append 46 component.name (ascii "val=" ++ Decimal.intText num) clean
  unfold parse
  rw [body]
  simp only [name, suffix]
  rw [show 46 :: (ascii "val=" ++ Decimal.intText num) = ascii ".val=" ++ Decimal.intText num from rfl,
    after_append]
  simp only [Decimal.readInt_intText, Option.map_some]

/-- The part of a text is read only when the text contains no quote. -/
theorem parse_weather (text : CString) :
    parse (Command.weather text).body =
      if (34 : UInt8) ∈ text.bytes then none else some (.txt (ascii "weather") text.bytes) := by
  have body : (Command.weather text).body =
      ascii "weather" ++ 46 :: (ascii "txt=\"" ++ (text.bytes ++ [34])) := by
    rw [Command.body, List.append_assoc]
    rfl
  obtain ⟨name, suffix⟩ := span_append 46 (ascii "weather") (ascii "txt=\"" ++ (text.bytes ++ [34])) (by decide)
  unfold parse
  rw [body]
  simp only [name, suffix]
  rw [show after (ascii ".val=") (46 :: (ascii "txt=\"" ++ (text.bytes ++ [34]))) = none from rfl,
    show 46 :: (ascii "txt=\"" ++ (text.bytes ++ [34])) = ascii ".txt=\"" ++ (text.bytes ++ [34]) from rfl,
    after_append]
  by_cases quote : (34 : UInt8) ∈ text.bytes
  · have long : (text.bytes ++ [34]).dropWhile (· ≠ 34) ≠ [34] := by
      obtain ⟨start, rest, bytes, clean⟩ := List.eq_append_cons_of_mem quote
      have dropped := (span_append 34 start (rest ++ [34]) clean).2
      rw [bytes, List.append_assoc, List.cons_append, dropped]
      simp
    rw [if_pos quote]
    exact if_neg long
  · obtain ⟨inside, outside⟩ := span_append 34 text.bytes [] quote
    simp only [inside, outside, if_neg quote, if_true]

/-- A body ends with a byte that is not part of a terminator. -/
theorem Command.body_ends (command : Command) :
    ∃ start symbol, command.body = start ++ [symbol] ∧ symbol ≠ 0xFF := by
  cases command with
  | val component num =>
      have text : Decimal.intText num ≠ [] := by
        intro empty
        have read := Decimal.readInt_intText num
        rw [empty] at read
        cases read
      refine ⟨component.prefixString.bytes ++ (Decimal.intText num).dropLast,
        (Decimal.intText num).getLast text, ?_, ?_⟩
      · rw [List.append_assoc, List.dropLast_append_getLast]
        rfl
      · intro same
        have member := List.getLast_mem text
        rw [same] at member
        exact Decimal.intText_not_mem num 0xFF (by decide) (by decide) member
  | weather text => exact ⟨_, 34, rfl, by decide⟩

/-- A body stays one part unless its text contains a terminator. -/
theorem split_body (command : Command) :
    (split 0xFF 3 command.body).1 = [] ↔
      ∀ text, command = .weather text → ¬ List.replicate 3 (0xFF : UInt8) <:+: text.bytes := by
  cases command with
  | val component num =>
      have clean : (0xFF : UInt8) ∉ (Command.val component num).body := by
        rw [Command.body, List.mem_append, not_or]
        exact ⟨by cases component <;> decide, Decimal.intText_not_mem num 0xFF (by decide) (by decide)⟩
      have whole : (split 0xFF 3 (Command.val component num).body).1 = [] := by
        rw [split, scan_whole_iff [] 0 _ (by decide)]
        exact fun inside => clean (inside.mem (by decide))
      refine iff_of_true whole fun text same => ?_
      cases same
  | weather text =>
      have start : (0xFF : UInt8) ∉ weatherString.bytes := by decide
      have last : ¬ List.replicate 3 (0xFF : UInt8) <:+ text.bytes ++ [34] := by
        intro ends
        rcases List.suffix_concat_iff.mp ends with empty | ⟨rest, marks, _⟩
        · cases empty
        · have quote : (34 : UInt8) ∈ List.replicate 3 (0xFF : UInt8) := by rw [marks]; simp
          exact absurd (List.eq_of_mem_replicate quote) (by decide)
      rw [Command.body, List.append_assoc, split, scan_payload [] _ _ start, scan_whole_iff _ 0 _ (by decide),
        List.replicate_zero, List.nil_append, List.infix_concat_iff, or_iff_right last]
      constructor
      · intro whole other same
        cases same
        exact whole
      · intro whole
        exact whole text rfl

end Parts

/-- The stream has one part for every body and one more for every terminator inside a text. -/
theorem split_encode (commands : List Command) :
    split 0xFF 3 (encode commands) =
      (commands.flatMap fun command => (split 0xFF 3 command.body).1 ++ [(split 0xFF 3 command.body).2], []) := by
  induction commands with
  | nil => rfl
  | cons command commands ih =>
      obtain ⟨start, symbol, body, other⟩ := command.body_ends
      rw [encode_cons, List.flatMap_cons, body, split_payload (by decide) start _ symbol other, ih,
        List.append_assoc, List.singleton_append]

/-- Lists that are not empty have one item each when their number is the total length. -/
theorem length_eq_one_of_flatMap {α β : Type} (pieces : α → List β) (items : List α)
    (positive : ∀ item, pieces item ≠ []) :
    items.length ≤ (items.flatMap pieces).length ∧
      ((items.flatMap pieces).length = items.length → ∀ item ∈ items, (pieces item).length = 1) := by
  induction items with
  | nil => exact ⟨Nat.le_refl 0, fun _ _ member => absurd member List.not_mem_nil⟩
  | cons first items ih =>
      have one : 0 < (pieces first).length := List.length_pos_iff.mpr (positive first)
      rw [List.flatMap_cons, List.length_append, List.length_cons]
      refine ⟨by omega, fun total item member => ?_⟩
      rcases List.mem_cons.mp member with rfl | member
      · omega
      · exact ih.2 (by omega) item member

/-- Bodies without a terminator inside are the parts of the stream. -/
theorem split_encode_of_whole (commands : List Command)
    (whole : ∀ command ∈ commands, (split 0xFF 3 command.body).1 = []) :
    split 0xFF 3 (encode commands) = (commands.map Command.body, []) := by
  have parts : ∀ command ∈ commands,
      (split 0xFF 3 command.body).1 ++ [(split 0xFF 3 command.body).2] = [command.body] := by
    intro command member
    rw [whole command member, List.nil_append, split, scan_whole [] 0 command.body (whole command member)]
    rfl
  rw [split_encode, List.flatMap_congr parts, List.map_eq_flatMap]

/-- All parts are read when the reading of each is known. -/
theorem mapM_eq_some_iff {α β : Type} (read : α → Option β) (items : List α) (results : List β) :
    items.mapM read = some results ↔ items.map read = results.map some := by
  induction items generalizing results with
  | nil => cases results <;> simp
  | cons item items ih =>
      rw [List.mapM_cons, List.map_cons]
      cases results with
      | nil => cases read item <;> cases items.mapM read <;> simp
      | cons result results =>
          rw [List.map_cons, List.cons.injEq, ← ih]
          cases read item <;> cases items.mapM read <;> simp

/-- The parser recovers the updates exactly when every text is delimited. -/
theorem decode_issue_iff (commands : List Command) :
    (∃ stream, issue commands = .ok stream ∧ decode stream = some (commands.map Command.reading)) ↔
      ∀ text, Command.weather text ∈ commands → Delimited text := by
  have issued : (∃ stream, issue commands = .ok stream ∧ decode stream = some (commands.map Command.reading)) ↔
      (split 0xFF 3 (encode commands)).1.map parse = (commands.map Command.reading).map some := by
    rw [issue_ok, ← mapM_eq_some_iff]
    simp [decode, split_encode]
  have whole_iff (whole : ∀ command ∈ commands, (split 0xFF 3 command.body).1 = []) :
      (split 0xFF 3 (encode commands)).1.map parse = (commands.map Command.reading).map some ↔
        ∀ command ∈ commands, parse command.body = some command.reading := by
    rw [split_encode_of_whole commands whole, List.map_map, List.map_map, List.map_inj_left]
    rfl
  rw [issued]
  constructor
  · intro decoded text member
    have count := congrArg List.length decoded
    rw [List.length_map, List.length_map, List.length_map, split_encode] at count
    have single := (length_eq_one_of_flatMap _ commands fun command => by simp).2 count
    have whole : ∀ command ∈ commands, (split 0xFF 3 command.body).1 = [] := by
      intro command listed
      simpa using single command listed
    have read := (whole_iff whole).mp decoded _ member
    rw [parse_weather] at read
    refine ⟨fun quote => ?_, (split_body _).mp (whole _ member) text rfl⟩
    rw [if_pos quote] at read
    cases read
  · intro delimited
    have whole : ∀ command ∈ commands, (split 0xFF 3 command.body).1 = [] := by
      intro command member
      rw [split_body]
      rintro text rfl
      exact (delimited text member).2
    rw [whole_iff whole]
    intro command member
    cases command with
    | val component num => exact parse_val component num
    | weather text => rw [parse_weather, if_neg (delimited text member).1]; rfl

/-- A text that closes its quote and its command and opens another one. -/
def injectingText : CString := ⟨97 :: 34 :: terminator.bytes ++ weatherString.bytes ++ [98], by decide⟩

/-- The parser reads two commands where one was issued. -/
theorem not_decode_issue : ¬ ∀ commands, ∃ stream,
    issue commands = .ok stream ∧ decode stream = some (commands.map Command.reading) := by
  intro recovered
  obtain ⟨stream, issued, decoded⟩ := recovered [.weather injectingText]
  rw [issue_ok] at issued
  cases issued
  have injected : decode (encode [.weather injectingText]) =
      some [.txt (ascii "weather") [97], .txt (ascii "weather") [98]] := by decide
  rw [injected] at decoded
  cases decoded

end DesktopCube.Display
