import OmegaStick.Simulator.Json

/-!
# Simulator scripts

`sim/src/script.cpp`: a JSON document is checked and converted to a timeline of steps, or
refused with a message that names the step.
-/

namespace OmegaStick

open Utf16 (bytes)
open SimJson (Value)

namespace SimScript

/-! ## Scripts -/

structure Expect (D : Type) where
  calibrated : Option Bool := none
  center_max : Option D := none
  mouse_moved : Option (List UInt8) := none
  clicked : Option (List UInt8) := none
  mode : Option (List UInt8) := none
  sensor_fault : Option Bool := none
  sensor_observed : Option Bool := none
  neutral : Option Bool := none
  needs_calibration : Option Bool := none
  fw_slot : Option (List UInt8) := none
  fw_pending : Option Bool := none
  fw_version : Option (List UInt8) := none
  xac_x : Option D := none
  xac_y : Option D := none

inductive Kind where
  | stick | pattern | fault | drift | noise | nextImage | action | expect
  deriving DecidableEq, Repr

structure Step (D : Type) where
  at_ms : ℤ
  kind : Kind := .stick
  x : D
  y : D
  name : List UInt8 := []
  duration_ms : ℤ := -1
  number : D
  text : List UInt8 := []
  center : Option D := none
  range : Option D := none
  expect_reply : Option (List UInt8) := none
  expect : Expect D := {}

/-- A step with its time and the defaults of everything else. -/
def Step.start {D : Type} [Zero D] (at_ms : ℤ) : Step D :=
  { at_ms := at_ms, x := 0, y := 0, number := 0 }

structure Script (D : Type) where
  name : List UInt8
  steps : List (Step D)

/-! ## Limits and names -/

/-- A bound, and how `json::Value(bound).dump()` writes it. -/
structure Bound where
  value : ℚ
  text : String

def zero : Bound := ⟨0, "0"⟩

def one : Bound := ⟨1, "1"⟩

def minusOne : Bound := ⟨-1, "-1"⟩

def kMaxScriptMs : Bound := ⟨86400000, "86400000"⟩

def kMaxScriptSteps : ℕ := 5000

def kMaxDriftRate : Bound := ⟨10, "10"⟩

def kMaxNoiseSigma : Bound := ⟨1, "1"⟩

def kMaxCenterDeadzone : Bound := ⟨1 / 2, "0.5"⟩

/-- The double nearest to 0.1. -/
def kMaxRangeDeadzone : Bound := ⟨3602879701896397 / 2 ^ 55, "0.1"⟩

/-- The bound of `expect.center_max`. -/
def maxCenter : Bound := ⟨10, "10"⟩

def kPatterns : List String :=
  ["rest", "circle", "calibrate", "nudge_right", "nudge_left", "nudge_up", "nudge_down", "wander"]

def kActions : List String :=
  ["recalibrate", "save", "restart", "set_mode", "set_deadzone", "flash", "revert", "mark_valid",
    "fw_info", "plant_unusable_calibration", "set_nudge_enabled"]

def kReplies : List String := ["ok", "busy", "invalid", "unsupported", "error"]

def kKinds : List String :=
  ["stick", "pattern", "fault", "drift", "noise", "next_image", "action", "expect"]

/-- The names of `fault_name`. -/
def faultNames : List String := ["ok", "no_response", "stuck_counter", "weak_magnet"]

/-- The names of `next_image_name`. -/
def nextImageNames : List String :=
  ["ok", "fail_self_test", "crash_loop", "slow_sensor_start", "slow_sensor_fail",
    "crash_when_confirmed"]

def contains (names : List String) (s : List UInt8) : Bool := names.any fun name => bytes name = s

/-! ## Checks -/

section Checks

variable {D : Type} [DoubleText D]

abbrev Checked := Except (List UInt8)

def fail {α : Type} (index : ℕ) (what : List UInt8) : Checked α :=
  .error (bytes "step " ++ bytes (toString index) ++ bytes ": " ++ what)

def numberIn (v : Value D) (index : ℕ) (what : String) (lo hi : Bound) : Checked D :=
  let refused : Checked D := fail index (bytes (what ++ " must be a number from " ++ lo.text ++
    " to " ++ hi.text))
  match v with
  | .number n =>
      match DoubleText.value n with
      | some q => if q < lo.value ∨ hi.value < q then refused else .ok n
      | none => refused
  | _ => refused

def wantBool (index : ℕ) (key : String) : Value D → Checked Bool
  | .bool b => .ok b
  | _ => fail index (bytes ("expect." ++ key ++ " must be true or false"))

def wantChoice (index : ℕ) (key : String) (choices : List String) :
    Value D → Checked (List UInt8)
  | .string s =>
      if contains choices s then .ok s
      else fail index (bytes ("expect." ++ key ++ " has an unsupported value"))
  | _ => fail index (bytes ("expect." ++ key ++ " has an unsupported value"))

/-- `static_cast<int64_t>` of a number from 0 to a day. -/
def toInt64 (n : D) : ℤ := ((DoubleText.value n).getD 0).floor

/-! ### Expectations -/

/-- One round of the loop in `parse_expect`. -/
def parseExpectMember (index : ℕ) (x : Expect D) (m : List UInt8 × Value D) :
    Checked (Expect D) := do
  let (key, v) := m
  if key = bytes "calibrated" then
    let b ← wantBool index "calibrated" v
    .ok { x with calibrated := some b }
  else if key = bytes "center_max" then
    let n ← numberIn v index "expect.center_max" zero maxCenter
    .ok { x with center_max := some n }
  else if key = bytes "mouse_moved" then
    let s ← wantChoice index "mouse_moved" ["right", "left", "up", "down", "none"] v
    .ok { x with mouse_moved := some s }
  else if key = bytes "clicked" then
    let s ← wantChoice index "clicked" ["left", "right", "none"] v
    .ok { x with clicked := some s }
  else if key = bytes "mode" then
    let s ← wantChoice index "mode" ["mouse", "xac"] v
    .ok { x with mode := some s }
  else if key = bytes "sensor_fault" then
    let b ← wantBool index "sensor_fault" v
    .ok { x with sensor_fault := some b }
  else if key = bytes "sensor_observed" then
    let b ← wantBool index "sensor_observed" v
    .ok { x with sensor_observed := some b }
  else if key = bytes "neutral" then
    let b ← wantBool index "neutral" v
    .ok { x with neutral := some b }
  else if key = bytes "needs_calibration" then
    let b ← wantBool index "needs_calibration" v
    .ok { x with needs_calibration := some b }
  else if key = bytes "fw_slot" then
    let s ← wantChoice index "fw_slot" ["ota_0", "ota_1"] v
    .ok { x with fw_slot := some s }
  else if key = bytes "fw_pending" then
    let b ← wantBool index "fw_pending" v
    .ok { x with fw_pending := some b }
  else if key = bytes "fw_version" then
    match v with
    | .string s => .ok { x with fw_version := some s }
    | _ => fail index (bytes "expect.fw_version must be a string")
  else if key = bytes "xac_x" then
    let n ← numberIn v index "expect.xac_x" minusOne one
    .ok { x with xac_x := some n }
  else if key = bytes "xac_y" then
    let n ← numberIn v index "expect.xac_y" minusOne one
    .ok { x with xac_y := some n }
  else fail index (bytes "unknown expect key '" ++ key ++ bytes "'")

def parseExpect (e : Value D) (index : ℕ) : Checked (Expect D) :=
  match e with
  | .object members => members.foldlM (parseExpectMember index) {}
  | _ => fail index (bytes "expect must be an object")

/-! ### Steps -/

/-- Keys that go with a step's body. -/
def sideKeys : List String := ["at_ms", "duration_ms", "expect_reply", "value", "version"]

/-- One round of the search for the step's body. -/
def findBody (index : ℕ) (body : Option (List UInt8 × Value D)) (m : List UInt8 × Value D) :
    Checked (Option (List UInt8 × Value D)) :=
  if contains sideKeys m.1 then .ok body
  else if ¬ contains kKinds m.1 then fail index (bytes "unknown key '" ++ m.1 ++ bytes "'")
  else if body.isSome then
    fail index (bytes ("needs exactly one of stick, pattern, fault, drift, noise, next_image, " ++
      "action, expect"))
  else .ok (some m)

def parseStick (st : Step D) (body : Value D) (index : ℕ) : Checked (Step D) :=
  match body with
  | .array [first, second] => do
      let x ← numberIn first index "stick x" minusOne one
      let y ← numberIn second index "stick y" minusOne one
      .ok { st with kind := .stick, x := x, y := y }
  | _ => fail index (bytes "stick must be [x, y]")

/-- A body that is one of a list of names. -/
def parseName (names : List String) (refusal : String) (body : Value D) (index : ℕ) :
    Checked (List UInt8) :=
  match body with
  | .string s => if contains names s then .ok s else fail index (bytes refusal)
  | _ => fail index (bytes refusal)

def parsePattern (st : Step D) (s body : Value D) (index : ℕ) : Checked (Step D) := do
  let name ← parseName kPatterns "unknown pattern" body index
  let st := { st with kind := .pattern, name := name }
  match s.find (bytes "duration_ms") with
  | none => .ok st
  | some d =>
      let n ← numberIn d index "duration_ms" zero kMaxScriptMs
      .ok { st with duration_ms := toInt64 n }

/-- `limited` in `parse_step`. -/
def limited (value : Value D) (onPurpose : Bool) (index : ℕ) (key : String) (hi : Bound) :
    Checked (Option D) :=
  match value.find (bytes key) with
  | none => .ok none
  | some v =>
      if onPurpose then
        match v with
        | .number n =>
            if (DoubleText.value n).isSome then .ok (some n)
            else fail index (bytes ("set_deadzone " ++ key ++ " must be a number"))
        | _ => fail index (bytes ("set_deadzone " ++ key ++ " must be a number"))
      else (numberIn v index ("set_deadzone " ++ key) zero hi).map some

/-- The keys of a `set_deadzone` value. -/
def checkDeadzoneKeys (index : ℕ) (members : List (List UInt8 × Value D)) : Checked Unit :=
  members.forM fun m =>
    if m.1 ≠ bytes "center" ∧ m.1 ≠ bytes "range" then
      fail index (bytes "set_deadzone value has an unknown key '" ++ m.1 ++ bytes "'")
    else .ok ()

/-- What `parse_step` reads of an action besides its name and the reply expected. -/
def parseActionValue (st : Step D) (s : Value D) (index : ℕ) : Checked (Step D) :=
  let value := s.find (bytes "value")
  if st.name = bytes "set_mode" then
    let refused := fail index (bytes "set_mode needs value \"mouse\" or \"xac\"")
    match value with
    | some (.string mode) =>
        if mode ≠ bytes "mouse" ∧ mode ≠ bytes "xac" then refused
        else .ok { st with text := mode }
    | _ => refused
  else if st.name = bytes "set_nudge_enabled" then
    match value with
    | some (.bool enabled) => .ok { st with text := bytes (if enabled then "on" else "off") }
    | _ => fail index (bytes "set_nudge_enabled needs value true or false")
  else if st.name = bytes "set_deadzone" then
    let refused := fail index
      (bytes "set_deadzone needs value \x7b\"center\": n, \"range\": n\x7d")
    match value with
    | some (.object members) =>
        if members.isEmpty then refused
        else do
          let onPurpose := decide (st.expect_reply = some (bytes "invalid"))
          checkDeadzoneKeys index members
          let center ← limited (.object members) onPurpose index "center" kMaxCenterDeadzone
          let range ← limited (.object members) onPurpose index "range" kMaxRangeDeadzone
          .ok { st with center := center, range := range }
    | _ => refused
  else if st.name = bytes "flash" then
    let version := SimJson.stringOr s (bytes "version") (bytes "9.9.9-sim")
    if version.isEmpty ∨ 31 < version.length then
      fail index (bytes "flash version must be 1 to 31 characters")
    else .ok { st with text := version }
  else .ok st

def parseAction (st : Step D) (s body : Value D) (index : ℕ) : Checked (Step D) := do
  let name ← parseName kActions "unknown action" body index
  let st := { st with kind := .action, name := name }
  match s.find (bytes "expect_reply") with
  | none => parseActionValue st s index
  | some r =>
      let reply ← parseName kReplies
        "expect_reply must be ok, busy, invalid, unsupported or error" r index
      parseActionValue { st with expect_reply := some reply } s index

/-- The branches of `parse_step` on the body's key. -/
def parseBody (st : Step D) (s : Value D) (index : ℕ) (key : List UInt8) (body : Value D) :
    Checked (Step D) :=
  if key = bytes "stick" then parseStick st body index
  else if key = bytes "pattern" then parsePattern st s body index
  else if key = bytes "fault" then do
    let name ← parseName faultNames "fault must be ok, no_response, stuck_counter or weak_magnet"
      body index
    .ok { st with kind := .fault, name := name }
  else if key = bytes "drift" then do
    let n ← numberIn body index "drift" zero kMaxDriftRate
    .ok { st with kind := .drift, number := n }
  else if key = bytes "noise" then do
    let n ← numberIn body index "noise" zero kMaxNoiseSigma
    .ok { st with kind := .noise, number := n }
  else if key = bytes "next_image" then do
    let name ← parseName nextImageNames ("next_image must be ok, fail_self_test, crash_loop, " ++
      "slow_sensor_start, slow_sensor_fail or crash_when_confirmed") body index
    .ok { st with kind := .nextImage, name := name }
  else if key = bytes "expect" then do
    let expect ← parseExpect body index
    .ok { st with kind := .expect, expect := expect }
  else parseAction st s body index

def parseStep (s : Value D) (index : ℕ) : Checked (Step D) :=
  match s with
  | .object members => do
      let some at_ms := s.find (bytes "at_ms") | fail index (bytes "missing at_ms")
      let n ← numberIn at_ms index "at_ms" zero kMaxScriptMs
      let some (key, body) ← members.foldlM (findBody index) none
        | fail index (bytes ("needs one of stick, pattern, fault, drift, noise, next_image, " ++
            "action, expect"))
      parseBody (.start (toInt64 n)) s index key body
  | _ => fail index (bytes "must be an object")

/-- The loop of `parse_script`. -/
def parseSteps : ℕ → ℤ → List (Value D) → Checked (List (Step D))
  | _, _, [] => .ok []
  | index, last, s :: rest => do
      let st ← parseStep s index
      if st.at_ms < last then
        fail index (bytes "at_ms is not sorted (steps must be in time order)")
      else
        let steps ← parseSteps (index + 1) st.at_ms rest
        .ok (st :: steps)

def isVersion (v : Value D) : Bool := v.finite = some 1

def parseScript (doc : Value D) : Checked (Script D) :=
  match doc with
  | .object _ =>
      if (doc.find (bytes "version")).any fun v => !isVersion v then
        .error (bytes "unsupported script version")
      else
        match doc.find (bytes "steps") with
        | some (.array items) =>
            if kMaxScriptSteps < items.length then
              .error (bytes "too many steps (limit 5000)")
            else do
              let steps ← parseSteps 0 0 items
              .ok ⟨SimJson.stringOr doc (bytes "name") (bytes "script"), steps⟩
        | _ => .error (bytes "a script needs a steps array")
  | _ => .error (bytes "a script must be a JSON object")

end Checks

end SimScript

end OmegaStick
