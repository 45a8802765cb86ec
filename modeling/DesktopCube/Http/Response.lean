import DesktopCube.Http.Cjson
import DesktopCube.Http.EventHandler
import DesktopCube.Display.Commands

namespace DesktopCube.Http
open CMemory Display

/-- A call of the handler finds the static variables as the last call of any client left them. -/
structure Delivery where
  event : HttpEvent
  hasRoom : Bool
  outputBuffer : Option Allocation
  outputLen : Nat
  bounded : outputLen ≤ maxHttpOutputBuffer

/-- The handler returns the buffer of the request that it is called for. -/
def deliver (client : HttpClient) (block : UserData) (delivery : Delivery) : Except Fault UserData :=
  (httpEventHandler client delivery.hasRoom delivery.event
    ⟨delivery.outputBuffer, delivery.outputLen⟩ (some block)).map fun result => result.2.2.getD block

/-- The client delivers the events of one request, whatever its outcome. -/
def espHttpClientPerform (client : HttpClient) (deliveries : List Delivery) (block : UserData) :
    Except Fault UserData :=
  deliveries.foldlM (deliver client) block

/-- The string that a request leaves in `local_response_buffer`. -/
def localResponse (client : HttpClient) (deliveries : List Delivery) : Except Fault CString :=
  espHttpClientPerform client deliveries Block.zeros >>= Block.text

/-- The effects of a request outside its own memory. -/
structure Effects where
  settimeofday : List Int
  uart : List UInt8
  cjsonDelete : Nat
  espHttpClientCleanup : Nat

/-- The last two calls of each request release its memory. -/
def Effects.release (effects : Effects) : Effects :=
  { effects with
    cjsonDelete := effects.cjsonDelete + 1
    espHttpClientCleanup := effects.espHttpClientCleanup + 1 }

/-- The conversions of the C library between a time stamp and the system time. -/
structure TimeLibrary (Double : Type) where
  Tm : Type
  seconds : Double → Int
  localtime : Int → Tm
  mktime : Tm → Int

variable (cjson : Cjson)

def timeHttpRestWithUrl (library : TimeLibrary cjson.Double) (client : HttpClient)
    (deliveries : List Delivery) (effects : Effects) : Except Fault Effects := do
  let localResponseBuffer ← localResponse client deliveries
  let root := cjson.parse localResponseBuffer
  let currentTime ← deref (cjson.getObjectItem root Key.currentTime.string)
  let timeStamp := library.seconds (cjson.valuedouble currentTime)
  let timeSinceEpoch := library.mktime (library.localtime timeStamp)
  return { effects with settimeofday := effects.settimeofday ++ [timeSinceEpoch] }.release

/-- The six UART calls of the weather request. -/
def sendWeather (text : Option CString) (temp : Int) (stream : List UInt8) : Except Fault (List UInt8) := do
  let stream ← uartSendString (some weatherString) stream
  let stream ← uartSendString text stream
  let stream ← uartSendString (some closingString) stream
  let stream ← uartSendString (some Component.temperature.prefixString) stream
  let stream ← uartSendNum temp stream
  uartSendString (some terminator) stream

/-- The log call reads the members that no command carries. -/
def weatherHttpRestWithUrl (client : HttpClient) (deliveries : List Delivery) (effects : Effects) :
    Except Fault Effects := do
  let localResponseBuffer ← localResponse client deliveries
  let root := cjson.parse localResponseBuffer
  let result := cjson.getObjectItem root Key.result.string
  let location := cjson.getObjectItem result Key.location.string
  let now := cjson.getObjectItem result Key.now.string
  let _ ← deref (cjson.getObjectItem location Key.name.string)
  let text ← deref (cjson.getObjectItem now Key.text.string)
  let temp ← deref (cjson.getObjectItem now Key.temp.string)
  let _ ← deref (cjson.getObjectItem now Key.rh.string)
  let _ ← deref (cjson.getObjectItem now Key.windClass.string)
  let _ ← deref (cjson.getObjectItem now Key.windDir.string)
  let stream ← sendWeather (cjson.valuestring text) (cjson.valueint temp) effects.uart
  return { effects with uart := stream }.release

namespace Cjson

variable (body : CString)

def location : Option cjson.Item :=
  cjson.getObjectItem (cjson.getObjectItem (cjson.parse body) Key.result.string) Key.location.string

def now : Option cjson.Item :=
  cjson.getObjectItem (cjson.getObjectItem (cjson.parse body) Key.result.string) Key.now.string

/-- The body is an object whose member `currentTime` is a number. -/
def HasCurrentTime : Prop :=
  ∃ root item, cjson.parse body = some root ∧ cjson.type root = .object ∧
    cjson.getObjectItem (some root) Key.currentTime.string = some item ∧ cjson.type item = .number

/-- The string at `result.now.text`. -/
def weatherText : Option CString := (cjson.getObjectItem (cjson.now body) Key.text.string).bind cjson.valuestring

/-- The integer at `result.now.temp`. -/
def weatherTemp : Option Int :=
  (cjson.getObjectItem (cjson.now body) Key.temp.string).bind fun item =>
    if cjson.type item = .number then some (cjson.valueint item) else none

/-- The body has every member that the weather request reads and its temperature fits. -/
structure WeatherAnswer : Prop where
  name : (cjson.getObjectItem (cjson.location body) Key.name.string).isSome = true
  text : ∃ item ∈ cjson.getObjectItem (cjson.now body) Key.text.string, cjson.type item = .string
  temp : ∃ temp ∈ cjson.weatherTemp body, (itoa temp).bytes.length + 1 ≤ numStringSize
  rh : (cjson.getObjectItem (cjson.now body) Key.rh.string).isSome = true
  windClass : (cjson.getObjectItem (cjson.now body) Key.windClass.string).isSome = true
  windDir : (cjson.getObjectItem (cjson.now body) Key.windDir.string).isSome = true

end Cjson

/-- Both functions return through their release calls. -/
structure Released (before after : Effects) : Prop where
  cjsonDelete : after.cjsonDelete = before.cjsonDelete + 1
  espHttpClientCleanup : after.espHttpClientCleanup = before.espHttpClientCleanup + 1

/-- The time request sets the clock exactly when the body tells the time. -/
def TimeKeeps (body : CString) (before : Effects) (result : Except Fault Effects) : Prop :=
  ∃ after, result = .ok after ∧ Released before after ∧ after.uart = before.uart ∧
    ((∃ seconds, after.settimeofday = before.settimeofday ++ [seconds]) ↔ cjson.HasCurrentTime body) ∧
    (¬ cjson.HasCurrentTime body → after.settimeofday = before.settimeofday)

/-- The bytes of a command with its terminator. -/
def commandBytes (command : Command) : List UInt8 := command.body ++ terminator.bytes

/-- The weather request sends two whole commands from the body or nothing. -/
def WeatherKeeps (body : CString) (before : Effects) (result : Except Fault Effects) : Prop :=
  ∃ after, result = .ok after ∧ Released before after ∧ after.settimeofday = before.settimeofday ∧
    (after.uart = before.uart ∨
      ∃ text ∈ cjson.weatherText body, ∃ temp ∈ cjson.weatherTemp body,
        after.uart = before.uart ++ commandBytes (.weather text) ++ commandBytes (.val .temperature temp))

/-- Every event succeeds and leaves the last byte. -/
theorem deliver_ok (client : HttpClient) (block : UserData) (delivery : Delivery) :
    ∃ after, deliver client block delivery = .ok after ∧
      after[maxHttpOutputBuffer] = block[maxHttpOutputBuffer] := by
  obtain ⟨_, _, after, handled, _, kept⟩ := httpEventHandler_bounded client delivery.hasRoom
    delivery.event delivery.outputBuffer delivery.outputLen block delivery.bounded
  refine ⟨after, ?_, kept⟩
  rw [deliver, handled]
  rfl

/-- A request ends with a string in its buffer. -/
theorem espHttpClientPerform_ok (client : HttpClient) (deliveries : List Delivery) (block : UserData) :
    ∃ after, espHttpClientPerform client deliveries block = .ok after ∧
      after[maxHttpOutputBuffer] = block[maxHttpOutputBuffer] := by
  induction deliveries generalizing block with
  | nil => exact ⟨block, rfl, rfl⟩
  | cons delivery rest ih =>
      obtain ⟨middle, delivered, same⟩ := deliver_ok client block delivery
      obtain ⟨after, finished, kept⟩ := ih middle
      refine ⟨after, ?_, kept.trans same⟩
      rw [espHttpClientPerform, List.foldlM_cons, delivered]
      exact finished

theorem localResponse_ok (client : HttpClient) (deliveries : List Delivery) :
    ∃ body, localResponse client deliveries = .ok body := by
  obtain ⟨block, finished, last⟩ := espHttpClientPerform_ok client deliveries Block.zeros
  rw [Block.zeros_getElem] at last
  obtain ⟨body, text⟩ := Block.text_ok block maxHttpOutputBuffer (Nat.lt_succ_self _) last
  refine ⟨body, ?_⟩
  rw [localResponse, finished]
  exact text

/-- A string reaches the stream when it is not NULL. -/
theorem uartSendString_eq_ok {string : Option CString} {stream next : List UInt8} :
    uartSendString string stream = .ok next ↔ ∃ text, string = some text ∧ next = stream ++ text.bytes := by
  cases string with
  | none => simp [uartSendString]
  | some text => simp [uartSendString, uartWriteBytes, eq_comm]

theorem uartSendNum_eq_ok {num : Int} {stream next : List UInt8} :
    uartSendNum num stream = .ok next ↔
      (itoa num).bytes.length + 1 ≤ numStringSize ∧ next = stream ++ (itoa num).bytes := by
  unfold uartSendNum
  split
  · rename_i fits
    simp [uartSendString_eq_ok, fits]
  · rename_i overflows
    simp [overflows]

/-- The six calls send two whole commands when each call succeeds. -/
theorem sendWeather_eq_ok {text : Option CString} {temp : Int} {stream next : List UInt8} :
    sendWeather text temp stream = .ok next ↔
      ∃ string, text = some string ∧ (itoa temp).bytes.length + 1 ≤ numStringSize ∧
        next = stream ++ commandBytes (.weather string) ++ commandBytes (.val .temperature temp) := by
  simp only [sendWeather, bind_eq_ok, uartSendString_eq_ok, uartSendNum_eq_ok, Option.some.injEq,
    exists_eq_left']
  constructor
  · rintro ⟨_, rfl, _, ⟨string, rfl, rfl⟩, _, rfl, _, rfl, _, ⟨fits, rfl⟩, rfl⟩
    refine ⟨string, rfl, fits, ?_⟩
    simp [commandBytes, Command.body, closingString]
  · rintro ⟨string, rfl, fits, rfl⟩
    refine ⟨_, rfl, _, ⟨string, rfl, rfl⟩, _, rfl, _, rfl, _, ⟨fits, rfl⟩, ?_⟩
    simp [commandBytes, Command.body, closingString]

section Requests

variable {cjson} {client : HttpClient} {deliveries : List Delivery} {body : CString}
  {before after : Effects}

/-- The time request succeeds exactly when the member exists. -/
theorem timeHttpRestWithUrl_eq_ok {library : TimeLibrary cjson.Double}
    (response : localResponse client deliveries = .ok body) :
    timeHttpRestWithUrl cjson library client deliveries before = .ok after ↔
      ∃ item, cjson.getObjectItem (cjson.parse body) Key.currentTime.string = some item ∧
        after = { before with settimeofday := before.settimeofday ++
          [library.mktime (library.localtime (library.seconds (cjson.valuedouble item)))] }.release := by
  simp only [timeHttpRestWithUrl, bind_eq_ok, response, deref_eq_ok, pure, Except.pure, Except.ok.injEq,
    exists_eq_left', @eq_comm Effects after]

theorem weatherHttpRestWithUrl_eq_ok (response : localResponse client deliveries = .ok body) :
    weatherHttpRestWithUrl cjson client deliveries before = .ok after ↔
      (cjson.getObjectItem (cjson.location body) Key.name.string).isSome = true ∧
      (cjson.getObjectItem (cjson.now body) Key.rh.string).isSome = true ∧
      (cjson.getObjectItem (cjson.now body) Key.windClass.string).isSome = true ∧
      (cjson.getObjectItem (cjson.now body) Key.windDir.string).isSome = true ∧
      ∃ text ∈ cjson.weatherText body,
        ∃ temp ∈ cjson.getObjectItem (cjson.now body) Key.temp.string,
          (itoa (cjson.valueint temp)).bytes.length + 1 ≤ numStringSize ∧
          after = { before with uart := (before.uart ++ commandBytes (.weather text) ++
            commandBytes (.val .temperature (cjson.valueint temp))) }.release := by
  simp only [weatherHttpRestWithUrl, bind_eq_ok, response, deref_eq_ok, pure, Except.pure, Except.ok.injEq,
    exists_eq_left', sendWeather_eq_ok, Option.isSome_iff_exists, Cjson.weatherText, Option.mem_def,
    Option.bind_eq_some_iff]
  constructor
  · rintro ⟨name, named, text, found, temp, measured, rh, humid, windClass, strong, windDir, blown, _,
      ⟨string, isString, fits, rfl⟩, rfl⟩
    exact ⟨⟨name, named⟩, ⟨rh, humid⟩, ⟨windClass, strong⟩, ⟨windDir, blown⟩, string,
      ⟨text, found, isString⟩, temp, measured, fits, rfl⟩
  · rintro ⟨⟨name, named⟩, ⟨rh, humid⟩, ⟨windClass, strong⟩, ⟨windDir, blown⟩, string,
      ⟨text, found, isString⟩, temp, measured, fits, rfl⟩
    exact ⟨name, named, text, found, temp, measured, rh, humid, windClass, strong, windDir, blown, _,
      ⟨string, isString, fits, rfl⟩, rfl⟩

/-- Any member named `currentTime` sets the clock, but only a number may. -/
theorem timeKeeps_iff {library : TimeLibrary cjson.Double}
    (response : localResponse client deliveries = .ok body) :
    TimeKeeps cjson body before (timeHttpRestWithUrl cjson library client deliveries before) ↔
      cjson.HasCurrentTime body := by
  constructor
  · rintro ⟨after, returned, _, _, sets, _⟩
    obtain ⟨item, _, rfl⟩ := (timeHttpRestWithUrl_eq_ok response).mp returned
    exact sets.mp ⟨_, rfl⟩
  · intro answered
    have ⟨root, item, parsed, _, found, _⟩ := answered
    have member : cjson.getObjectItem (cjson.parse body) Key.currentTime.string = some item := by
      rw [parsed]
      exact found
    refine ⟨_, (timeHttpRestWithUrl_eq_ok response).mpr ⟨item, member, rfl⟩, ⟨rfl, rfl⟩, rfl, ?_, ?_⟩
    · exact ⟨fun _ => answered, fun _ => ⟨_, rfl⟩⟩
    · exact fun missing => absurd answered missing

/-- The weather request keeps its promise exactly for a full answer. -/
theorem weatherKeeps_iff (response : localResponse client deliveries = .ok body) :
    WeatherKeeps cjson body before (weatherHttpRestWithUrl cjson client deliveries before) ↔
      cjson.WeatherAnswer body := by
  constructor
  · rintro ⟨after, returned, _, _, sent⟩
    obtain ⟨name, rh, windClass, windDir, text, isText, item, found, fits, rfl⟩ :=
      (weatherHttpRestWithUrl_eq_ok response).mp returned
    obtain ⟨member, located, isString⟩ := Option.bind_eq_some_iff.mp isText
    have string : cjson.type member = .string :=
      (cjson.valuestring_isSome member).mp (Option.isSome_iff_exists.mpr ⟨text, isString⟩)
    refine ⟨name, ⟨member, located, string⟩, ?_, rh, windClass, windDir⟩
    rcases sent with silent | ⟨_, _, temp, isTemp, _⟩
    · have empty := congrArg List.length silent
      simp [Effects.release, commandBytes, terminator] at empty
    · refine ⟨temp, isTemp, ?_⟩
      obtain ⟨other, located, measured⟩ := Option.bind_eq_some_iff.mp isTemp
      have same : other = item := Option.some.inj (located.symm.trans found)
      split at measured
      · rw [← Option.some.inj measured, same]
        exact fits
      · cases measured
  · rintro ⟨name, ⟨member, located, string⟩, ⟨temp, isTemp, fits⟩, rh, windClass, windDir⟩
    obtain ⟨text, isString⟩ := Option.isSome_iff_exists.mp ((cjson.valuestring_isSome member).mpr string)
    have isText : cjson.weatherText body = some text := Option.bind_eq_some_iff.mpr ⟨member, located, isString⟩
    obtain ⟨item, found, measured⟩ := Option.bind_eq_some_iff.mp isTemp
    have value : cjson.valueint item = temp := by
      split at measured
      · exact Option.some.inj measured
      · cases measured
    subst value
    exact ⟨_, (weatherHttpRestWithUrl_eq_ok response).mpr
      ⟨name, rh, windClass, windDir, text, isText, item, found, fits, rfl⟩, ⟨rfl, rfl⟩, rfl,
      .inr ⟨text, isText, _, isTemp, rfl⟩⟩

/-- Neither a missing value nor a value of another type has members. -/
theorem getObjectItem_eq_none {parent : Option cjson.Item}
    (missing : ∀ object ∈ parent, cjson.type object ≠ .object) (key : CString) :
    cjson.getObjectItem parent key = none := by
  cases parent with
  | none => exact cjson.getObjectItem_null key
  | some object =>
      by_contra found
      obtain ⟨item, found⟩ := Option.ne_none_iff_exists'.mp found
      exact missing object rfl (cjson.getObjectItem_object object key item found)

/-- Both requests dereference NULL when the body is not an object. -/
theorem requests_nullDereference (library : TimeLibrary cjson.Double) (effects : Effects)
    (response : localResponse client deliveries = .ok body)
    (missing : ∀ root ∈ cjson.parse body, cjson.type root ≠ .object) :
    timeHttpRestWithUrl cjson library client deliveries effects = .error .nullDereference ∧
      weatherHttpRestWithUrl cjson client deliveries effects = .error .nullDereference := by
  have none := getObjectItem_eq_none missing
  constructor
  · rw [timeHttpRestWithUrl, response]
    simp only [bind, Except.bind, none, deref]
  · rw [weatherHttpRestWithUrl, response]
    simp only [bind, Except.bind, none, cjson.getObjectItem_null, deref]

end Requests

/-- Each request leaves the device as it was exactly when its response is the expected one. -/
theorem requests_keep_iff (library : TimeLibrary cjson.Double) (client : HttpClient)
    (deliveries : List Delivery) (before : Effects) :
    ∃ body, localResponse client deliveries = .ok body ∧
      (TimeKeeps cjson body before (timeHttpRestWithUrl cjson library client deliveries before) ↔
        cjson.HasCurrentTime body) ∧
      (WeatherKeeps cjson body before (weatherHttpRestWithUrl cjson client deliveries before) ↔
        cjson.WeatherAnswer body) := by
  obtain ⟨body, response⟩ := localResponse_ok client deliveries
  exact ⟨body, response, timeKeeps_iff response, weatherKeeps_iff response⟩

/-- A request that fails before its first event dereferences NULL in both functions. -/
theorem not_requests_keep : ¬ ∀ (cjson : Cjson) (library : TimeLibrary cjson.Double) client deliveries
    before body, localResponse client deliveries = .ok body →
      TimeKeeps cjson body before (timeHttpRestWithUrl cjson library client deliveries before) ∧
      WeatherKeeps cjson body before (weatherHttpRestWithUrl cjson client deliveries before) := by
  intro keeps
  let failing : Cjson := Json.cjson fun _ => none
  let integers : TimeLibrary Int := ⟨Int, fun timeStamp => timeStamp / 1000, id, id⟩
  let library : TimeLibrary failing.Double := integers
  have response : localResponse ⟨false, -1⟩ [] = .ok ⟨[], List.not_mem_nil⟩ := Block.text_zeros
  have missing : ∀ root ∈ failing.parse ⟨[], List.not_mem_nil⟩, failing.type root ≠ .object := by
    intro root parsed
    cases parsed
  obtain ⟨faults, _⟩ := requests_nullDereference library ⟨[], [], 0, 0⟩ response missing
  obtain ⟨after, returned, _⟩ := (keeps failing library ⟨false, -1⟩ [] ⟨[], [], 0, 0⟩ _ response).1
  rw [faults] at returned
  cases returned

end DesktopCube.Http
