import DesktopCube.Display.Numbers
import DesktopCube.Http.Response
import DesktopCube.Library.Civil
import DesktopCube.Library.Machine

namespace DesktopCube.Http
open Transition CMemory Calendar Display

/-- The time zone `CST-8`, eight hours ahead of universal time. -/
def cst8 : Int := 8 * 3600

/-- The conversions of newlib in a zone without summer time. -/
def localtimeIn (zone timeStamp : Int) : DateTime := dateTime (timeStamp + zone)

def mktimeIn (zone : Int) (time : DateTime) : Int := mktime time - zone

def newlib (Double : Type) (seconds : Double → Int) (atLocaltime atMktime : Int) : TimeLibrary Double :=
  ⟨DateTime, seconds, localtimeIn atLocaltime, mktimeIn atMktime⟩

/-- The steps of the time request after the response of the server. -/
inductive TimePoint where
  | waiting
  | stamped (timeStamp : Int)
  | converted (time : DateTime)
  | counted (timeSinceEpoch : Int)
  | done

/-- One reading of the clock in seconds with the time of the server and whether the clock was set before. -/
structure Reading where
  now : Int
  server : Nat
  afterSync : Bool

/-- The steps of one round of `Task_RTCGetTime`. -/
inductive RtcPoint where
  | idle
  | read (reading : Reading)
  | zoned (reading : Reading)

/-- Both clocks and the two delays of the request count microseconds. -/
structure Clock where
  zone : Int
  system : Int
  server : Nat
  time : TimePoint
  rtc : RtcPoint
  lag : Nat
  dropped : Nat
  raced : Bool
  shown : List (Reading × Tm)

/-- The environment starts without the variable `TZ`. -/
def Clock.start (system : Int) (server : Nat) : Clock := ⟨0, system, server, .waiting, .idle, 0, 0, false, []⟩

def microsPerSecond : Nat := 1000000

/-- The server sends its time as `currentTime` in milliseconds. -/
def currentTime (server : Nat) : Nat := server / 1000

/-- The request drops the last three digits. -/
def timeStamp (currentTime : Nat) : Int := (currentTime / 1000 : Nat)

/-- The request sets the received second, moved by a change of the zone between its conversions. -/
theorem timeHttpRestWithUrl_newlib {cjson : Cjson} {seconds : cjson.Double → Int} {atLocaltime atMktime : Int}
    {client : HttpClient} {deliveries : List Delivery} {body : CString} {before after : Effects}
    (response : localResponse client deliveries = .ok body) :
    timeHttpRestWithUrl cjson (newlib cjson.Double seconds atLocaltime atMktime) client deliveries before =
        .ok after ↔
      ∃ item, cjson.getObjectItem (cjson.parse body) Key.currentTime.string = some item ∧
        after = { before with settimeofday := before.settimeofday ++
          [seconds (cjson.valuedouble item) + atLocaltime - atMktime] }.release := by
  rw [timeHttpRestWithUrl_eq_ok response]
  simp only [newlib, localtimeIn, mktimeIn, mktime_dateTime]

inductive ClockLabel where
  | tick (elapsed : Nat)
  | respond
  | localtime
  | mktime
  | settimeofday
  | time
  | setenv
  | localtimeR
  deriving DecidableEq, Repr

namespace TimePoint

/-- The request has its time stamp and has not set the clock. -/
def pending : TimePoint → Bool
  | stamped _ | converted _ | counted _ => true
  | waiting | done => false

/-- The request is between its calls of `localtime` and `mktime`. -/
def isConverted : TimePoint → Bool
  | converted _ => true
  | waiting | stamped _ | counted _ | done => false

def isDone : TimePoint → Bool
  | done => true
  | waiting | stamped _ | converted _ | counted _ => false

end TimePoint

namespace Clock

/-- Both clocks run at one rate and both tasks share the zone and the clock. -/
def step (c : Clock) (label : ClockLabel) : Option Clock :=
  match label, c.time, c.rtc with
  | .tick elapsed, _, _ => some { c with
      system := c.system + elapsed
      server := c.server + elapsed
      lag := if c.time.pending then c.lag + elapsed else c.lag }
  | .respond, .waiting, _ => some { c with
      time := .stamped (timeStamp (currentTime c.server))
      dropped := c.server % microsPerSecond }
  | .localtime, .stamped timeStamp, _ => some { c with time := .converted (localtimeIn c.zone timeStamp) }
  | .mktime, .converted time, _ => some { c with time := .counted (mktimeIn c.zone time) }
  | .settimeofday, .counted timeSinceEpoch, _ => some { c with
      system := timeSinceEpoch * microsPerSecond
      time := .done }
  | .time, _, .idle => some { c with rtc := .read ⟨c.system / microsPerSecond, c.server, c.time.isDone⟩ }
  | .setenv, _, .read reading => some { c with
      zone := cst8
      rtc := .zoned reading
      raced := c.raced || c.time.isConverted && c.zone ≠ cst8 }
  | .localtimeR, _, .zoned reading => some { c with
      rtc := .idle
      shown := c.shown ++ [(reading, Calendar.localtime c.zone reading.now)] }
  | _, _, _ => none

end Clock

def clockMachine (system : Int) (server : Nat) : Machine Clock ClockLabel :=
  ⟨Clock.start system server, Clock.step⟩

/-- A change of the zone between the two conversions turns the clock back by the whole offset. -/
def Clock.shift (c : Clock) : Int := if c.raced then cst8 else 0

/-- The device lags by the time of the request and by the part of a second that the request dropped. -/
def Clock.secondAt (c : Clock) (server : Nat) : Int :=
  ((server : Int) - c.lag - c.dropped) / microsPerSecond - c.shift

/-- The second was the time of the server before the two delays. -/
def Clock.Told (c : Clock) (second : Int) : Prop :=
  second * microsPerSecond = (c.server : Int) - c.lag - c.dropped

/-- A reading after the setting of the clock lags behind the server. -/
def Reading.InTime (reading : Reading) (c : Clock) : Prop :=
  reading.afterSync = true → c.time = .done ∧ reading.now = c.secondAt reading.server

/-- The request carries the second of its response through both conversions. -/
def Clock.Carried (c : Clock) : Prop :=
  match c.time with
  | .waiting => c.lag = 0 ∧ c.raced = false
  | .stamped timeStamp => c.Told timeStamp ∧ c.raced = false
  | .converted time =>
      ∃ second, c.Told second ∧ time = dateTime (second + c.zone - c.shift) ∧ (c.raced = true → c.zone = cst8)
  | .counted timeSinceEpoch => c.Told (timeSinceEpoch + c.shift)
  | .done => c.system = (c.server : Int) - c.lag - c.dropped - c.shift * microsPerSecond

/-- The task shows its readings in the zone that it has set. -/
structure InTime (c : Clock) : Prop where
  zone : c.zone = 0 ∨ c.zone = cst8
  dropped : c.dropped < microsPerSecond
  carried : c.Carried
  read : ∀ reading, c.rtc = .read reading → reading.InTime c
  zoned : ∀ reading, c.rtc = .zoned reading → reading.InTime c ∧ c.zone = cst8
  shown : ∀ entry ∈ c.shown, entry.1.InTime c ∧ entry.2 = localtimeR entry.1.now

/-- The time of the server is the sent second and the part of a second that the request drops. -/
theorem timeStamp_currentTime (server : Nat) :
    timeStamp (currentTime server) * microsPerSecond = (server : Int) - (server % microsPerSecond : Nat) := by
  unfold timeStamp currentTime microsPerSecond
  omega

namespace InTime

variable {c next : Clock}

/-- A reading stays in time when the finished request keeps its records. -/
theorem keep {reading : Reading} (inTime : reading.InTime c)
    (kept : c.time = .done →
      next.time = .done ∧ next.lag = c.lag ∧ next.dropped = c.dropped ∧ next.raced = c.raced) :
    reading.InTime next := by
  intro after
  obtain ⟨done, now⟩ := inTime after
  obtain ⟨still, lag, dropped, raced⟩ := kept done
  refine ⟨still, ?_⟩
  rw [now, Clock.secondAt, Clock.secondAt, lag, dropped, Clock.shift, Clock.shift, raced]

/-- A step that keeps the readings and the zone of a finished request keeps what they show. -/
theorem of_carried (inTime : InTime c) (zone : next.zone = c.zone) (rtc : next.rtc = c.rtc)
    (shown : next.shown = c.shown) (dropped : next.dropped < microsPerSecond)
    (kept : c.time = .done →
      next.time = .done ∧ next.lag = c.lag ∧ next.dropped = c.dropped ∧ next.raced = c.raced)
    (carried : next.Carried) : InTime next := by
  refine ⟨?_, dropped, carried, ?_, ?_, ?_⟩
  · rw [zone]
    exact inTime.zone
  · intro reading read
    rw [rtc] at read
    exact keep (inTime.read reading read) kept
  · intro reading zoned
    rw [rtc] at zoned
    rw [zone]
    exact ⟨keep (inTime.zoned reading zoned).1 kept, (inTime.zoned reading zoned).2⟩
  · intro entry member
    rw [shown] at member
    exact ⟨keep (inTime.shown entry member).1 kept, (inTime.shown entry member).2⟩

/-- The request changes no reading before it has set the clock. -/
theorem of_unfinished (inTime : InTime c) (unfinished : c.time.isDone = false) (zone : next.zone = c.zone)
    (rtc : next.rtc = c.rtc) (shown : next.shown = c.shown) (dropped : next.dropped < microsPerSecond)
    (carried : next.Carried) : InTime next := by
  apply inTime.of_carried zone rtc shown dropped ?_ carried
  intro done
  rw [done] at unfinished
  cases unfinished

theorem tick (inTime : InTime c) (elapsed : Nat) : InTime { c with
    system := c.system + elapsed
    server := c.server + elapsed
    lag := if c.time.pending then c.lag + elapsed else c.lag } := by
  have carried := inTime.carried
  unfold Clock.Carried at carried
  have told (second : Int) (pending : c.time.pending = true) (before : c.Told second) : Clock.Told { c with
      system := c.system + elapsed
      server := c.server + elapsed
      lag := if c.time.pending then c.lag + elapsed else c.lag } second := by
    unfold Clock.Told at before ⊢
    simp only [pending, if_true]
    omega
  apply inTime.of_carried
  · rfl
  · rfl
  · rfl
  · exact inTime.dropped
  · intro done
    exact ⟨done, by rw [done]; rfl, rfl, rfl⟩
  · unfold Clock.Carried
    cases time : c.time with
    | waiting =>
        simp only [time] at carried
        exact carried
    | stamped timeStamp =>
        simp only [time] at carried
        rw [time] at told
        exact ⟨told timeStamp rfl carried.1, carried.2⟩
    | converted date =>
        simp only [time] at carried
        obtain ⟨second, before, same⟩ := carried
        rw [time] at told
        exact ⟨second, told second rfl before, same⟩
    | counted timeSinceEpoch =>
        simp only [time] at carried
        rw [time] at told
        exact told _ rfl carried
    | done =>
        simp only [time, Clock.shift] at carried
        simp only [TimePoint.pending, Bool.false_eq_true, if_false, Clock.shift]
        omega

/-- The first change of the zone meets the request before, between or after its conversions. -/
theorem setenv {reading : Reading} (inTime : InTime c) (read : c.rtc = .read reading) : InTime { c with
    zone := cst8
    rtc := .zoned reading
    raced := c.raced || c.time.isConverted && c.zone ≠ cst8 } := by
  have carried := inTime.carried
  unfold Clock.Carried at carried
  have kept : c.time = .done → c.time = .done ∧ c.lag = c.lag ∧ c.dropped = c.dropped ∧
      (c.raced || c.time.isConverted && c.zone ≠ cst8) = c.raced := by
    intro done
    rw [done]
    exact ⟨rfl, rfl, rfl, Bool.or_false _⟩
  refine ⟨.inr rfl, inTime.dropped, ?_, fun _ idle => RtcPoint.noConfusion idle, ?_, ?_⟩
  · unfold Clock.Carried
    cases time : c.time with
    | waiting | stamped | counted | done =>
        simp only [time, Clock.Told, Clock.shift] at carried
        simpa only [TimePoint.isConverted, Bool.false_and, Bool.or_false, Clock.Told, Clock.shift] using carried
    | converted date =>
        simp only [time, Clock.shift] at carried
        obtain ⟨second, told, same, zoned⟩ := carried
        simp only [TimePoint.isConverted, Bool.true_and, Clock.shift]
        refine ⟨second, told, same.trans (congrArg dateTime ?_), fun _ => trivial⟩
        cases raced : c.raced with
        | true =>
            rw [zoned raced]
            rfl
        | false =>
            rcases inTime.zone with zone | zone <;> rw [zone] <;> simp [cst8]
  · intro other zoned
    cases zoned
    exact ⟨keep (inTime.read _ read) kept, rfl⟩
  · intro entry member
    exact ⟨keep (inTime.shown entry member).1 kept, (inTime.shown entry member).2⟩

theorem step {label : ClockLabel} (inTime : InTime c) (taken : c.step label = some next) : InTime next := by
  have carried := inTime.carried
  unfold Clock.Carried at carried
  unfold Clock.step at taken
  split at taken
  · rename_i elapsed
    cases taken
    exact inTime.tick elapsed
  · rename_i time
    cases taken
    simp only [time] at carried
    have told := timeStamp_currentTime c.server
    refine inTime.of_unfinished (by rw [time]; rfl) rfl rfl rfl (Nat.mod_lt _ (by decide)) ⟨?_, carried.2⟩
    show timeStamp (currentTime c.server) * microsPerSecond =
      (c.server : Int) - c.lag - (c.server % microsPerSecond : Nat)
    rw [told, carried.1]
    omega
  · rename_i timeStamp time
    cases taken
    simp only [time] at carried
    have same : timeStamp + c.zone = timeStamp + c.zone - c.shift := by
      simp only [Clock.shift, carried.2, Bool.false_eq_true, if_false]
      omega
    exact inTime.of_unfinished (by rw [time]; rfl) rfl rfl rfl inTime.dropped
      ⟨timeStamp, carried.1, congrArg dateTime same,
        fun raced => Bool.noConfusion (carried.2.symm.trans raced)⟩
  · rename_i date time
    cases taken
    simp only [time] at carried
    obtain ⟨second, told, rfl, _⟩ := carried
    have same : mktimeIn c.zone (dateTime (second + c.zone - c.shift)) + c.shift = second := by
      rw [mktimeIn, mktime_dateTime]
      omega
    exact inTime.of_unfinished (by rw [time]; rfl) rfl rfl rfl inTime.dropped
      (show Clock.Told _ (_ + c.shift) from same.symm ▸ told)
  · rename_i timeSinceEpoch time
    cases taken
    simp only [time] at carried
    have set : timeSinceEpoch * microsPerSecond =
        (c.server : Int) - c.lag - c.dropped - c.shift * microsPerSecond := by
      rw [← carried, Int.add_mul]
      omega
    exact inTime.of_unfinished (by rw [time]; rfl) rfl rfl rfl inTime.dropped set
  · rename_i idle
    cases taken
    refine ⟨inTime.zone, inTime.dropped, inTime.carried, ?_, fun _ zoned => RtcPoint.noConfusion zoned,
      inTime.shown⟩
    rintro reading read
    cases read
    intro after
    cases time : c.time with
    | done =>
        simp only [time] at carried
        refine ⟨rfl, ?_⟩
        show c.system / (microsPerSecond : Nat) = _ / (microsPerSecond : Nat) - c.shift
        rw [carried, Int.sub_mul_ediv_right _ _ (by decide)]
    | waiting | stamped | converted | counted =>
        simp [time, TimePoint.isDone] at after
  · rename_i reading read
    cases taken
    exact inTime.setenv read
  · rename_i reading zoned
    cases taken
    refine ⟨inTime.zone, inTime.dropped, inTime.carried, fun _ read => RtcPoint.noConfusion read,
      fun _ zoned => RtcPoint.noConfusion zoned, ?_⟩
    intro entry member
    rcases List.mem_append.mp member with old | new
    · exact inTime.shown entry old
    · rw [List.mem_singleton.mp new]
      obtain ⟨inTime, zone⟩ := inTime.zoned reading zoned
      exact ⟨inTime, by rw [zone]; rfl⟩
  · cases taken

end InTime

theorem InTime.of_reaches {system : Int} {server : Nat} {c : Clock}
    (reached : (clockMachine system server).Reachable c) : InTime c :=
  reached.invariant InTime
    ⟨.inl rfl, Nat.zero_lt_succ _, ⟨rfl, rfl⟩, fun _ read => RtcPoint.noConfusion read,
      fun _ zoned => RtcPoint.noConfusion zoned, fun _ member => absurd member List.not_mem_nil⟩
    fun _ _ _ inTime _ taken => inTime.step taken

/-- The four commands of a date. -/
def dateCommands (date : DateTime) : List Command :=
  [.val .month (date.tmMon + 1), .val .day date.tmMday, .val .hour date.tmHour, .val .minute date.tmMin]

/-- A reading after the setting of the clock shows the one local date of the server up to its delays. -/
theorem shown_after_sync {system : Int} {server : Nat} {c : Clock}
    (reached : (clockMachine system server).Reachable c) :
    c.dropped < microsPerSecond ∧
      ∀ entry ∈ c.shown, entry.1.afterSync = true →
        ∃ date : DateTime, date.Valid ∧ date.toTm = entry.2 ∧
          mktime date = c.secondAt entry.1.server + cst8 ∧
          (∀ other : DateTime, other.Valid → mktime other = c.secondAt entry.1.server + cst8 → other = date) ∧
          ∀ stream, taskRtcGetTime entry.1.now stream =
            .ok (stream ++ (dateCommands date).flatMap fun command => command.body ++ terminator.bytes) := by
  have account := InTime.of_reaches reached
  refine ⟨account.dropped, ?_⟩
  intro entry member after
  obtain ⟨inTime, shown⟩ := account.shown entry member
  obtain ⟨_, now⟩ := inTime after
  have second : mktime (dateTime (entry.1.now + cst8)) = c.secondAt entry.1.server + cst8 := by
    rw [mktime_dateTime, now]
  refine ⟨dateTime (entry.1.now + cst8), dateTime_valid _, shown.symm, second, ?_, ?_⟩
  · intro other valid same
    exact valid.unique (dateTime_valid _) (same.trans second.symm)
  · exact taskRtcGetTime_ok entry.1.now

/-- The server is past eight and the device shows the minute before it because 900 ms were dropped. -/
theorem shown_after_sync_march : ∃ date : DateTime, date.Valid ∧ date.tmMin = 59 ∧ mktime date = 1709279999 := by
  obtain ⟨c, finished, entries, lag, dropped, raced⟩ : ∃ c,
      (clockMachine 0 1709251199900000).run (Clock.start 0 1709251199900000) [.time, .setenv, .respond, .tick 50000,
        .localtimeR, .localtime, .mktime, .settimeofday, .tick 150000, .time, .setenv, .localtimeR] = some c ∧
      (∃ first, c.shown = [first, (⟨1709251199, 1709251200100000, true⟩, ⟨59, 7, 1, 2⟩)]) ∧
        c.lag = 50000 ∧ c.dropped = 900000 ∧ c.raced = false := ⟨_, rfl, ⟨_, rfl⟩, rfl, rfl, rfl⟩
  obtain ⟨_, entries⟩ := entries
  have reached : (clockMachine 0 1709251199900000).Reachable c := Machine.run_reaches finished fun _ _ _ => trivial
  obtain ⟨date, valid, same, second, _⟩ := (shown_after_sync reached).2
    (⟨1709251199, 1709251200100000, true⟩, ⟨59, 7, 1, 2⟩) (by simp [entries]) rfl
  refine ⟨date, valid, congrArg Tm.tmMin same, ?_⟩
  rw [second, Clock.secondAt, lag, dropped, Clock.shift, raced]
  rfl

end DesktopCube.Http
