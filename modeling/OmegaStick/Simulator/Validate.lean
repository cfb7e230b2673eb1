import OmegaStick.Library.Stringify

/-!
# The page's check of a script

`validateSimScript` of `omega_protocol.js`, with the messages it collects.  A script is a
JSON value as `JSON.parse` yields it: a member that is not there is `undefined`.
-/

namespace OmegaStick

open Json (JsString textBytes)
open Utf16 (units)

namespace PageScript

def simPatterns : List String :=
  ["rest", "circle", "calibrate", "nudge_right", "nudge_left", "nudge_up", "nudge_down", "wander"]

def simFaults : List String := ["ok", "no_response", "stuck_counter", "weak_magnet"]

def simNextImage : List String :=
  ["ok", "fail_self_test", "crash_loop", "slow_sensor_start", "slow_sensor_fail",
    "crash_when_confirmed"]

def simReplies : List String := ["ok", "busy", "invalid", "unsupported", "error"]

def simActions : List String :=
  ["recalibrate", "save", "restart", "set_mode", "set_deadzone", "flash", "revert", "mark_valid",
    "fw_info", "plant_unusable_calibration", "set_nudge_enabled"]

def simScriptMaxBytes : ℕ := 262144

def simScriptMaxSteps : ℕ := 5000

def simMaxAtMs : ℕ := 86400000

def simStepKeys : List String :=
  ["stick", "pattern", "fault", "drift", "noise", "next_image", "action", "expect"]

def simExpectKeys : List String :=
  ["calibrated", "center_max", "mouse_moved", "clicked", "mode", "sensor_fault", "sensor_observed",
    "neutral", "needs_calibration", "fw_slot", "fw_pending", "fw_version", "xac_x", "xac_y"]

def join (names : List String) : String := ", ".intercalate names

/-- The number 0.1. -/
def pointOne : ℚ := 3602879701896397 / 2 ^ 55

section

variable {D : Type} [DoubleText D]

/-! ## Values -/

def isObj : Json D JsString → Bool
  | .object _ => true
  | _ => false

/-- `isNum(v) && v >= lo && v <= hi` -/
def isWithin (lo hi : ℚ) (v : Json D JsString) : Bool := v.finite.any fun q => lo ≤ q && q ≤ hi

/-- `list.includes(v)` -/
def includes (names : List String) : Json D JsString → Bool
  | .string s => names.any fun name => units name = s
  | _ => false

/-- `v === name` -/
def isText (name : String) : Json D JsString → Bool
  | .string s => s = units name
  | _ => false

def isBool : Json D JsString → Bool
  | .bool _ => true
  | _ => false

/-- `typeof v === "string"` with a length in these bounds. -/
def isTextOf (least most : ℕ) : Json D JsString → Bool
  | .string s => least ≤ s.length && s.length ≤ most
  | _ => false

/-- The messages of a check that does not hold. -/
def addUnless (holds : Bool) (message : JsString) : List JsString := if holds then [] else [message]

/-- The member is `undefined`, or the check holds of it. -/
def optional (check : Json D JsString → Bool) (v : Option (Json D JsString)) : Bool := v.all check

/-- The member is there, and the check holds of it. -/
def required (check : Json D JsString → Bool) (v : Option (Json D JsString)) : Bool := v.any check

/-- The keys that are not allowed, with a message for each. -/
def unexpected (allowed : List String) (members : List (JsString × Json D JsString))
    (message : JsString → JsString) : List JsString :=
  members.flatMap fun m => addUnless (allowed.any fun key => units key = m.1) (message m.1)

/-! ## Expectations -/

/-- The branches of `validateSimExpect` on one key. -/
def expectMember (at_ : JsString) (m : JsString × Json D JsString) : List JsString :=
  let (k, v) := m
  let bool (key : String) :=
    addUnless (isBool v) (at_ ++ units ("expect." ++ key ++ " must be true or false."))
  let oneOf (key : String) (list : List String) :=
    addUnless (includes list v)
      (at_ ++ units ("expect." ++ key ++ " must be one of " ++ join list ++ "."))
  if k = units "calibrated" then bool "calibrated"
  else if k = units "sensor_fault" then bool "sensor_fault"
  else if k = units "sensor_observed" then bool "sensor_observed"
  else if k = units "fw_pending" then bool "fw_pending"
  else if k = units "neutral" then bool "neutral"
  else if k = units "needs_calibration" then bool "needs_calibration"
  else if k = units "center_max" then
    addUnless (isWithin 0 10 v) (at_ ++ units "expect.center_max must be a number from 0 to 10.")
  else if k = units "fw_version" then
    addUnless (match v with | .string s => !s.isEmpty | _ => false)
      (at_ ++ units "expect.fw_version must be text.")
  else if k = units "xac_x" then
    addUnless (isWithin (-1) 1 v) (at_ ++ units "expect.xac_x must be a number from -1 to 1.")
  else if k = units "xac_y" then
    addUnless (isWithin (-1) 1 v) (at_ ++ units "expect.xac_y must be a number from -1 to 1.")
  else if k = units "mouse_moved" then oneOf "mouse_moved" ["right", "left", "up", "down", "none"]
  else if k = units "clicked" then oneOf "clicked" ["left", "right", "none"]
  else if k = units "mode" then oneOf "mode" ["mouse", "xac"]
  else if k = units "fw_slot" then oneOf "fw_slot" ["ota_0", "ota_1"]
  else
    [at_ ++ units "unknown expect key \"" ++ k ++ units ("\". Known: " ++ join simExpectKeys ++
      ".")]

def validateSimExpect (e : Json D JsString) (at_ : JsString) : List JsString :=
  if e.members.isEmpty then [at_ ++ units "\"expect\" needs at least one assertion."]
  else e.members.flatMap (expectMember at_)

/-! ## Actions -/

/-- `dz` of a `set_deadzone` value. -/
def dz (v : Json D JsString) (onPurpose : Bool) (at_ : JsString) (k : String) (hi : ℚ)
    (hiText : String) : List JsString :=
  match v.find (units k) with
  | none => []
  | some n =>
      match n.finite with
      | none => [at_ ++ units ("deadzone " ++ k ++ " must be a number.")]
      | some q =>
          addUnless (onPurpose || (0 ≤ q && q ≤ hi)) (at_ ++ units ("deadzone " ++ k ++
            " must be 0 to " ++ hiText ++
            " (or use \"expect_reply\": \"invalid\" to test the refusal)."))

/-- The check of `value`; whether the check of `version` still follows. -/
def validateValue (step : Json D JsString) (a : JsString) (at_ : JsString) :
    List JsString × Bool :=
  let value := step.find (units "value")
  if a = units "set_mode" then
    (addUnless (required (includes ["mouse", "xac"]) value)
      (at_ ++ units "set_mode needs \"value\": \"mouse\" or \"xac\"."), true)
  else if a = units "set_nudge_enabled" then
    (addUnless (required isBool value)
      (at_ ++ units "set_nudge_enabled needs \"value\": true or false."), true)
  else if a = units "set_deadzone" then
    match value with
    | some (.object members) =>
        let onPurpose := required (isText "invalid") (step.find (units "expect_reply"))
        (addUnless (!members.isEmpty)
            (at_ ++ units "set_deadzone \"value\" needs \"center\" and/or \"range\".") ++
          unexpected ["center", "range"] members (fun k =>
            at_ ++ units "set_deadzone \"value\" has unknown key \"" ++ k ++ units "\".") ++
          dz (.object members) onPurpose at_ "center" (1 / 2) "0.5" ++
          dz (.object members) onPurpose at_ "range" pointOne "0.1", true)
    | _ =>
        ([at_ ++ units
          "set_deadzone needs a \"value\" object with \"center\" and/or \"range\"."], false)
  else (addUnless value.isNone (at_ ++ a ++ units " does not take a \"value\"."), true)

def validateVersion (step : Json D JsString) (a : JsString) (at_ : JsString) : List JsString :=
  let version := step.find (units "version")
  if a = units "flash" then
    addUnless (optional (isTextOf 1 31) version)
      (at_ ++ units "flash \"version\" must be text of 1 to 31 characters.")
  else addUnless version.isNone (at_ ++ a ++ units " does not take a \"version\".")

def validateSimAction (step action : Json D JsString) (at_ : JsString) : List JsString :=
  match action with
  | .string a =>
      if includes simActions action then
        let value := validateValue step a at_
        addUnless (optional (includes simReplies) (step.find (units "expect_reply")))
            (at_ ++ units ("\"expect_reply\" must be one of " ++ join simReplies ++ ".")) ++
          value.1 ++ if value.2 then validateVersion step a at_ else []
      else [at_ ++ units ("unknown action. Known: " ++ join simActions ++ ".")]
  | _ => [at_ ++ units ("unknown action. Known: " ++ join simActions ++ ".")]

/-! ## Steps -/

/-- The check of `at_ms`, and the time the next step is compared with; `none` is `-Infinity`. -/
def validateTime (step : Json D JsString) (prev : Option ℚ) (at_ : JsString) :
    List JsString × Option ℚ :=
  match step.find (units "at_ms") with
  | some (.number n) =>
      match DoubleText.value n with
      | some q =>
          if 0 ≤ q ∧ q ≤ simMaxAtMs then
            (addUnless (prev.all (· ≤ q)) (at_ ++ units "\"at_ms\" " ++
              (DoubleText.numeral n).text.map UInt8.toUInt16 ++ units
              " is earlier than the step before it; steps must be in time order."), some q)
          else ([at_ ++ units "\"at_ms\" must be a number from 0 to 86400000."], prev)
      | none => ([at_ ++ units "\"at_ms\" must be a number from 0 to 86400000."], prev)
  | _ => ([at_ ++ units "\"at_ms\" must be a number from 0 to 86400000."], prev)

/-- The keys a step with this action key may have. -/
def allowed (key : String) (val : Json D JsString) : List String :=
  ["at_ms", key] ++ (if key = "pattern" then ["duration_ms"] else []) ++
    (if key = "action" then
      ["value", "expect_reply"] ++ if isText "flash" val then ["version"] else []
    else [])

/-- The branches on a step's action key. -/
def validateKind (step : Json D JsString) (key : String) (val : Json D JsString)
    (at_ : JsString) : List JsString :=
  if key = "stick" then
    addUnless (match val with
        | .array items => items.length = 2 && items.all (isWithin (-1) 1)
        | _ => false)
      (at_ ++ units "\"stick\" must be [x, y] with each value from -1 to 1.")
  else if key = "pattern" then
    addUnless (includes simPatterns val)
        (at_ ++ units ("unknown pattern. Known: " ++ join simPatterns ++ ".")) ++
      addUnless (optional (isWithin 0 simMaxAtMs) (step.find (units "duration_ms")))
        (at_ ++ units "\"duration_ms\" must be a number from 0 to 86400000.")
  else if key = "fault" then
    addUnless (includes simFaults val)
      (at_ ++ units ("unknown fault. Known: " ++ join simFaults ++ "."))
  else if key = "drift" then
    addUnless (isWithin 0 10 val) (at_ ++ units "\"drift\" must be a number from 0 to 10.")
  else if key = "noise" then
    addUnless (isWithin 0 1 val) (at_ ++ units "\"noise\" must be a number from 0 to 1.")
  else if key = "next_image" then
    addUnless (includes simNextImage val)
      (at_ ++ units ("unknown next_image. Known: " ++ join simNextImage ++ "."))
  else if key = "action" then validateSimAction step val at_
  else validateSimExpect val at_

/-- The action keys a step has. -/
def present (step : Json D JsString) : List String :=
  simStepKeys.filter fun k => (step.find (units k)).isSome

/-- The messages on the step at place `i`. -/
def validateStep (i : ℕ) (prev : Option ℚ) (step : Json D JsString) :
    List JsString × Option ℚ :=
  let at_ := units ("Step " ++ toString (i + 1) ++ ": ")
  match step with
  | .object members =>
      let time := validateTime step prev at_
      (time.1 ++
        match present step with
        | [key] =>
            let val := (step.find (units key)).getD .null
            unexpected (allowed key val) members (fun k =>
                at_ ++ units "unexpected key \"" ++ k ++ units "\".") ++
              validateKind step key val at_
        | [] => [at_ ++ units ("needs one of " ++ join simStepKeys ++ ".")]
        | more => [at_ ++ units ("has more than one action (" ++ join more ++
            "); use exactly one.")],
        time.2)
  | _ => ([at_ ++ units "must be an object."], prev)

def validateSteps : ℕ → Option ℚ → List (Json D JsString) → List JsString
  | _, _, [] => []
  | i, prev, step :: rest =>
      let checked := validateStep i prev step
      checked.1 ++ validateSteps (i + 1) checked.2 rest

/-! ## Scripts -/

/-- The messages on the script's own members. -/
def validateEnvelope (script : Json D JsString) : List JsString :=
  addUnless (required (fun v => v.finite = some 1) (script.find (units "version")))
      (units "The script needs \"version\": 1.") ++
    addUnless (optional (isTextOf 0 200) (script.find (units "name")))
      (units "\"name\" must be text of at most 200 characters.") ++
    unexpected ["version", "name", "steps"] script.members fun k =>
      units "Unknown script key \"" ++ k ++ units "\"."

/-- The size of the script's text: UTF-8 bytes, or units where there is no `TextEncoder`. -/
def textSize (textEncoder : Bool) (script : Json D JsString) : ℕ :=
  if textEncoder then (textBytes script).length
  else ((Json.stringify script).flatMap Utf16.charUnits).length

/-- What `add` collects; it keeps the first 20. -/
def messages (textEncoder : Bool) (script : Json D JsString) : List JsString :=
  if !isObj script then [units "The script must be a JSON object."]
  else if simScriptMaxBytes < textSize textEncoder script then
    [units "The script is larger than 256 KB."]
  else
    validateEnvelope script ++
      match script.find (units "steps") with
      | some (.array steps) =>
          if simScriptMaxSteps < steps.length then
            [units ("The script has " ++ toString steps.length ++ " steps; the limit is 5000.")]
          else validateSteps 0 none steps
      | _ => [units "The script needs a \"steps\" list."]

/-- The page's verdict. -/
structure Verdict where
  ok : Bool
  errors : List JsString
  deriving DecidableEq, Repr

def validateSimScript (textEncoder : Bool) (script : Json D JsString) : Verdict :=
  let errors := (messages textEncoder script).take 20
  ⟨errors.isEmpty, errors⟩

end

end PageScript

end OmegaStick
