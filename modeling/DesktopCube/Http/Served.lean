import DesktopCube.Display.Rounds
import DesktopCube.Http.Accumulation
import DesktopCube.Http.Clock

namespace DesktopCube.Http
open CMemory Display

/-- Each call finds what the call before it left, so no other client comes between. -/
def Alone (client : HttpClient) : Statics × UserData → List Delivery → Prop
  | _, [] => True
  | (statics, block), delivery :: rest =>
      statics = ⟨delivery.outputBuffer, delivery.outputLen⟩ ∧
        ∀ err after written,
          httpEventHandler client delivery.hasRoom delivery.event statics (some block) = .ok (err, after, written) →
          Alone client (after, written.getD block) rest

/-- The string of the latest response ends at a zero byte or where the buffer ends. -/
def servedBytes (events : List HttpEvent) : List UInt8 :=
  ((body (latestData events)).take maxHttpOutputBuffer).takeWhile (· ≠ 0)

/-- The buffer always holds the string of its bytes. -/
theorem padded_text (bytes : List UInt8) : ∃ served : CString, (padded bytes).text = .ok served ∧
    served.bytes = (bytes.take maxHttpOutputBuffer).takeWhile (· ≠ 0) := by
  apply Block.text_ofFn
  rw [List.length_take]
  exact Nat.min_le_left _ _

namespace Accumulates

variable {client : HttpClient} {events : List HttpEvent} {statics : Statics} {block : UserData}

/-- A request that is alone with the handler has the bytes of its own events in its buffer. -/
theorem perform_alone (plain : client.isChunkedResponse = false) (deliveries : List Delivery)
    (accumulates : Accumulates events (statics, block)) (alone : Alone client (statics, block) deliveries) :
    espHttpClientPerform client deliveries block =
      .ok (padded (body (latestData (events ++ deliveries.map Delivery.event)))) := by
  induction deliveries generalizing events statics block with
  | nil =>
      rw [List.map_nil, List.append_nil, ← accumulates.userData]
      rfl
  | cons delivery rest ih =>
      obtain ⟨rfl, later⟩ := alone
      obtain ⟨after, offset, written, returned, _, _⟩ := httpEventHandler_bounded client delivery.hasRoom
        delivery.event delivery.outputBuffer delivery.outputLen block delivery.bounded
      obtain ⟨next, handled, account⟩ := accumulates.step ⟨client, plain, delivery.hasRoom, []⟩ delivery.event
      rw [HttpRequest.handle, returned] at handled
      cases handled
      rw [List.map_cons, List.append_cons, ← ih account (later _ _ _ returned), espHttpClientPerform,
        List.foldlM_cons, deliver, returned]
      rfl

/-- The deliveries of any events can be alone with the handler. -/
theorem exists_alone (plain : client.isChunkedResponse = false) (hasRoom : Bool) (arriving : List HttpEvent)
    (accumulates : Accumulates events (statics, block)) :
    ∃ deliveries, deliveries.map Delivery.event = arriving ∧ Alone client (statics, block) deliveries := by
  induction arriving generalizing events statics block with
  | nil => exact ⟨[], rfl, trivial⟩
  | cons event arriving ih =>
      obtain ⟨buffer, _⟩ := statics
      obtain rfl := accumulates.outputLen
      obtain ⟨after, offset, written, returned, _, _⟩ :=
        httpEventHandler_bounded client hasRoom event buffer _ block (Nat.min_le_right _ _)
      obtain ⟨next, handled, account⟩ := accumulates.step ⟨client, plain, hasRoom, []⟩ event
      rw [HttpRequest.handle, returned] at handled
      cases handled
      obtain ⟨deliveries, rfl, alone⟩ := ih account
      refine ⟨⟨event, hasRoom, buffer, _, Nat.min_le_right _ _⟩ :: deliveries, rfl, rfl, ?_⟩
      intro err next copied same
      rw [returned] at same
      cases same
      exact alone

end Accumulates

/-- The buffer of a request that is alone after closed requests holds what the server sent last. -/
theorem localResponse_alone {client : HttpClient} {deliveries : List Delivery} {statics : Statics}
    (plain : client.isChunkedResponse = false) (fresh : statics.outputLen = 0)
    (alone : Alone client (statics, Block.zeros) deliveries) :
    ∃ served, localResponse client deliveries = .ok served ∧
      served.bytes = servedBytes (deliveries.map Delivery.event) := by
  obtain ⟨served, text, bytes⟩ := padded_text (body (latestData (deliveries.map Delivery.event)))
  refine ⟨served, ?_, bytes⟩
  rw [localResponse, (Accumulates.start fresh).perform_alone plain deliveries alone, List.nil_append]
  exact bind_eq_ok.mpr ⟨_, rfl, text⟩

/-- A full answer is sent as the round with its text and its temperature. -/
theorem weatherHttpRestWithUrl_round {cjson : Cjson} {client : HttpClient} {deliveries : List Delivery}
    {served : CString} (response : localResponse client deliveries = .ok served)
    (answered : cjson.WeatherAnswer served) (effects : Effects) :
    ∃ after, weatherHttpRestWithUrl cjson client deliveries effects = .ok after ∧
      ∃ text ∈ cjson.weatherText served, ∃ temp ∈ cjson.weatherTemp served,
        (Round.httpGetWeather text temp).run effects.uart = .ok after.uart := by
  have kept : WeatherKeeps cjson served effects (weatherHttpRestWithUrl cjson client deliveries effects) :=
    (weatherKeeps_iff response).mpr answered
  obtain ⟨after, returned, _⟩ := kept
  obtain ⟨_, _, _, _, text, isText, item, found, fits, same⟩ := (weatherHttpRestWithUrl_eq_ok response).mp returned
  obtain ⟨temp, measured, _⟩ := answered.temp
  have isTemp := measured
  rw [Cjson.weatherTemp, found, Option.mem_def, Option.bind_some, Option.ite_none_right_eq_some] at measured
  obtain ⟨_, value⟩ := measured
  refine ⟨after, returned, text, isText, temp, isTemp, sendWeather_eq_ok.mpr ⟨text, rfl, ?_, ?_⟩⟩
  · rw [← Option.some.inj value]
    exact fits
  · rw [same, ← Option.some.inj value]
    rfl

/-- A request that is alone sets the clock to the served second and shows the served weather. -/
theorem served_shown {cjson : Cjson} {earlier : List HttpRequest} {before : Statics} {client : HttpClient}
    {deliveries : List Delivery} {effects : Effects} {rounds : List Round}
    (closed : ∀ request ∈ earlier, request.Closed) (performed : performAll earlier = .ok before)
    (plain : client.isChunkedResponse = false) (alone : Alone client (before, Block.zeros) deliveries)
    (shown : rounds.foldlM Round.run [] = .ok effects.uart)
    (delimited : ∀ text temp, Round.httpGetWeather text temp ∈ rounds → Delimited text) :
    ∃ served : CString, localResponse client deliveries = .ok served ∧
      served.bytes = servedBytes (deliveries.map Delivery.event) ∧
      (∀ (seconds : cjson.Double → Int) (zone : Int) (after : Effects),
        timeHttpRestWithUrl cjson (newlib cjson.Double seconds zone zone) client deliveries effects = .ok after ↔
          ∃ item, cjson.getObjectItem (cjson.parse served) Key.currentTime.string = some item ∧
            after = { effects with
              settimeofday := effects.settimeofday ++ [seconds (cjson.valuedouble item)] }.release) ∧
      (cjson.WeatherAnswer served →
        ∃ after, weatherHttpRestWithUrl cjson client deliveries effects = .ok after ∧
          ∃ text ∈ cjson.weatherText served, ∃ temp ∈ cjson.weatherTemp served, Delimited text →
            decode after.uart = some
              (((rounds ++ [Round.httpGetWeather text temp]).flatMap Round.commands).map Command.reading)) := by
  obtain ⟨statics, same, fresh, _⟩ := performAll_ok earlier closed
  obtain rfl : statics = before := Except.ok.inj (same.symm.trans performed)
  obtain ⟨served, response, bytes⟩ := localResponse_alone plain fresh alone
  refine ⟨served, response, bytes, ?_, ?_⟩
  · intro seconds zone after
    rw [timeHttpRestWithUrl_newlib response]
    simp only [Int.add_sub_cancel]
  · intro answered
    obtain ⟨after, returned, text, isText, temp, isTemp, sent⟩ :=
      weatherHttpRestWithUrl_round response answered effects
    refine ⟨after, returned, text, isText, temp, isTemp, fun clean => Round.decode_run ?_ ?_⟩
    · rw [List.foldlM_append, shown]
      exact bind_eq_ok.mpr ⟨_, rfl, bind_eq_ok.mpr ⟨_, sent, rfl⟩⟩
    · intro other degrees member
      rcases List.mem_append.mp member with old | new
      · exact delimited other degrees old
      · rw [List.mem_singleton, Round.httpGetWeather.injEq] at new
        exact new.1 ▸ clean

/-- The members of an answer of the weather server that the request reads. -/
def fogLocation : Json := .object [(Key.name.string, .string ⟨ascii "a", by decide⟩)]

def fogNow : Json :=
  .object [(Key.text.string, .string ⟨ascii "fog", by decide⟩), (Key.temp.string, .number (-5)),
    (Key.rh.string, .number 90), (Key.windClass.string, .string ⟨ascii "b", by decide⟩),
    (Key.windDir.string, .string ⟨ascii "c", by decide⟩)]

def fogAnswer : Json :=
  .object [(Key.result.string, .object [(Key.location.string, fogLocation), (Key.now.string, fogNow)])]

/-- A parser that gives this tree reads a full answer. -/
theorem fogAnswer_full {parse : CString → Option Json} {served : CString} (parsed : parse served = some fogAnswer) :
    (Json.cjson parse).WeatherAnswer served ∧
      (Json.cjson parse).weatherText served = some ⟨ascii "fog", by decide⟩ ∧
      (Json.cjson parse).weatherTemp served = some (-5) := by
  have located : (Json.cjson parse).location served = some fogLocation := by
    show Json.getObjectItem (Json.getObjectItem (parse served) _) _ = _
    rw [parsed]
    rfl
  have current : (Json.cjson parse).now served = some fogNow := by
    show Json.getObjectItem (Json.getObjectItem (parse served) _) _ = _
    rw [parsed]
    rfl
  have cold : (Json.cjson parse).weatherTemp served = some (-5) := by
    rw [Cjson.weatherTemp, current]
    rfl
  refine ⟨?_, ?_, cold⟩
  · constructor
    case name =>
      rw [located]
      rfl
    case text =>
      rw [current]
      exact ⟨_, rfl, rfl⟩
    case temp => exact ⟨-5, cold, by decide⟩
    all_goals
      rw [current]
      rfl
  · rw [Cjson.weatherText, current]
    rfl

/-- The request for the time sets the clock and the one for the weather follows it after a round of the clock. -/
theorem served_shown_fog : ∃ (cjson : Cjson) (seconds : cjson.Double → Int) (timely deliveries : List Delivery)
    (set before after : Effects),
    timeHttpRestWithUrl cjson (newlib cjson.Double seconds cst8 cst8) ⟨false, -1⟩ timely ⟨[], [], 0, 0⟩ =
        .ok set ∧ set.settimeofday = [1709251199] ∧
      weatherHttpRestWithUrl cjson ⟨false, -1⟩ deliveries before = .ok after ∧ decode after.uart = some
        [.val (ascii "month") 1, .val (ascii "day") 1, .val (ascii "hour") 8, .val (ascii "minute") 0,
          .txt (ascii "weather") (ascii "fog"), .val (ascii "temperature") (-5)] := by
  let now := ascii "\x7b\"currentTime\":1709251199900\x7d"
  let first := ascii
    "\x7b\"result\":\x7b\"location\":\x7b\"name\":\"a\"\x7d,\"now\":\x7b\"text\":\"fog\",\"temp\":-5,"
  let rest := ascii "\"rh\":90,\"wind_class\":\"b\",\"wind_dir\":\"c\"\x7d\x7d\x7d"
  let parse (text : CString) : Option Json :=
    if text.bytes = now then some (.object [(Key.currentTime.string, .number 1709251199900)])
    else if text.bytes = first ++ rest then some fogAnswer
    else none
  have plain : (⟨false, -1⟩ : HttpClient).isChunkedResponse = false := rfl
  -- the time request comes first and closes
  let timeRequest : HttpRequest := ⟨⟨false, -1⟩, rfl, true, [.onConnected, .onData now, .onFinish, .disconnected]⟩
  obtain ⟨timely, arrived, undisturbed⟩ :=
    (Accumulates.start (show Statics.start.outputLen = 0 from rfl)).exists_alone plain true timeRequest.events
  obtain ⟨told, _, sent, time, _⟩ := @served_shown (Json.cjson parse) [] Statics.start _ timely ⟨[], [], 0, 0⟩ []
    (by simp) rfl plain undisturbed rfl (by simp)
  have timed : parse told = some (.object [(Key.currentTime.string, .number 1709251199900)]) := by
    apply if_pos
    rw [sent, arrived]
    decide
  have stamp : Json.getObjectItem (parse told) Key.currentTime.string = some (.number 1709251199900) := by
    rw [timed]
    rfl
  have closed : ∀ request ∈ [timeRequest], request.Closed := by
    intro request member
    rw [List.mem_singleton.mp member]
    exact ⟨[.onConnected, .onData now, .onFinish], .disconnected, [], rfl, rfl, by simp⟩
  -- the weather request finds the handler as the time request left it
  obtain ⟨statics, performed, fresh, _⟩ := performAll_ok [timeRequest] closed
  obtain ⟨deliveries, events, alone⟩ := (Accumulates.start fresh).exists_alone plain true
    [.onConnected, .onData first, .onData rest, .onFinish]
  obtain ⟨stream, ran⟩ : ∃ stream, [Round.rtcGetTime 0].foldlM Round.run [] = .ok stream :=
    ⟨_, (Round.foldlM_eq_ok_iff _ _ _).mpr ⟨by simp [Round.Fits], rfl⟩⟩
  obtain ⟨served, _, bytes, _, weather⟩ :=
    @served_shown (Json.cjson parse) _ _ _ _ ⟨[], stream, 0, 0⟩ _ closed performed plain alone ran (by simp)
  have whole : served.bytes = first ++ rest := by
    rw [bytes, events]
    decide
  have parsed : parse served = some fogAnswer := by
    refine (if_neg ?_).trans (if_pos whole)
    rw [whole]
    decide
  have second : timeStamp 1709251199900 = 1709251199 := by decide
  obtain ⟨answered, fog, cold⟩ := fogAnswer_full parsed
  obtain ⟨after, returned, text, isText, temp, isTemp, reads⟩ := weather answered
  obtain rfl := Option.some.inj (fog.symm.trans isText)
  obtain rfl := Option.some.inj (cold.symm.trans isTemp)
  exact ⟨Json.cjson parse, fun milliseconds : Int => timeStamp milliseconds.toNat, timely, deliveries, _, _, after,
    (time _ cst8 _).mpr ⟨_, stamp, rfl⟩, congrArg List.singleton second, returned,
    (reads ⟨by decide, by decide⟩).trans rfl⟩

end DesktopCube.Http
