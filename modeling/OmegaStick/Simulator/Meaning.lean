import OmegaStick.Simulator.ReadBack
import OmegaStick.Simulator.Script
import OmegaStick.Simulator.Validate

/-!
# What a script says

`described` is what a page's step says, whoever reads it: its time in whole milliseconds,
its kind and its values, numbers as rationals and texts in UTF-8.  `Step.values` is a step
of the simulator in the same terms, so that `ReadAlike` can compare the two.
-/

namespace OmegaStick

open Json (JsString textBytes)
open Utf16
open SimScript (Expect Step Kind)
open PageScript (present isText)

namespace SimScript

variable {D : Type} [DoubleText D]

/-! ## The simulator's steps -/

def Expect.values (x : Expect D) : Expect (Option ℚ) where
  calibrated := x.calibrated
  center_max := x.center_max.map DoubleText.value
  mouse_moved := x.mouse_moved
  clicked := x.clicked
  mode := x.mode
  sensor_fault := x.sensor_fault
  sensor_observed := x.sensor_observed
  neutral := x.neutral
  needs_calibration := x.needs_calibration
  fw_slot := x.fw_slot
  fw_pending := x.fw_pending
  fw_version := x.fw_version
  xac_x := x.xac_x.map DoubleText.value
  xac_y := x.xac_y.map DoubleText.value

def Step.values (st : Step D) : Step (Option ℚ) where
  at_ms := st.at_ms
  kind := st.kind
  x := DoubleText.value st.x
  y := DoubleText.value st.y
  name := st.name
  duration_ms := st.duration_ms
  number := DoubleText.value st.number
  text := st.text
  center := st.center.map DoubleText.value
  range := st.range.map DoubleText.value
  expect_reply := st.expect_reply
  expect := st.expect.values

end SimScript

namespace PageScript

variable {D : Type} [DoubleText D]

/-! ## The page's steps -/

/-- The members of an object under names that are literals. -/
def look (v : Json D JsString) (key : String) : Option (Json D JsString) := v.find (units key)

def asText : Json D JsString → Option (List UInt8)
  | .string s => some (encode s)
  | _ => none

def asBool : Json D JsString → Option Bool
  | .bool b => some b
  | _ => none

/-- A time or a duration in whole milliseconds. -/
def wholeMs (v : Json D JsString) : ℤ := (v.finite.getD 0).floor

/-- The assertions an expectation can hold. -/
inductive Assertion where
  | calibrated | center_max | mouse_moved | clicked | mode | sensor_fault | sensor_observed
  | neutral | needs_calibration | fw_slot | fw_pending | fw_version | xac_x | xac_y
  deriving DecidableEq, Repr

def Assertion.key : Assertion → String
  | .calibrated => "calibrated"
  | .center_max => "center_max"
  | .mouse_moved => "mouse_moved"
  | .clicked => "clicked"
  | .mode => "mode"
  | .sensor_fault => "sensor_fault"
  | .sensor_observed => "sensor_observed"
  | .neutral => "neutral"
  | .needs_calibration => "needs_calibration"
  | .fw_slot => "fw_slot"
  | .fw_pending => "fw_pending"
  | .fw_version => "fw_version"
  | .xac_x => "xac_x"
  | .xac_y => "xac_y"

/-- What an expectation says, by its members. -/
def describedExpect (member : Assertion → Option (Json D JsString)) : Expect (Option ℚ) where
  calibrated := (member .calibrated).bind asBool
  center_max := (member .center_max).map Json.finite
  mouse_moved := (member .mouse_moved).bind asText
  clicked := (member .clicked).bind asText
  mode := (member .mode).bind asText
  sensor_fault := (member .sensor_fault).bind asBool
  sensor_observed := (member .sensor_observed).bind asBool
  neutral := (member .neutral).bind asBool
  needs_calibration := (member .needs_calibration).bind asBool
  fw_slot := (member .fw_slot).bind asText
  fw_pending := (member .fw_pending).bind asBool
  fw_version := (member .fw_version).bind asText
  xac_x := (member .xac_x).map Json.finite
  xac_y := (member .xac_y).map Json.finite

/-- The text an action carries: a mode, a switch, or the version of a flashed image. -/
def actionText (step action : Json D JsString) : List UInt8 :=
  match look step "value" with
  | some (.string s) => encode s
  | some (.bool b) => bytes (if b then "on" else "off")
  | some _ => []
  | none =>
      if isText "flash" action then ((look step "version").bind asText).getD (bytes "9.9.9-sim")
      else []

/-- What a step says under its action key. -/
def describedBody (base : Step (Option ℚ)) (step : Json D JsString) (key : String)
    (val : Json D JsString) : Step (Option ℚ) :=
  if key = "stick" then
    match val with
    | .array [x, y] => { base with kind := .stick, x := x.finite, y := y.finite }
    | _ => base
  else if key = "pattern" then
    { base with
      kind := .pattern
      name := (asText val).getD []
      duration_ms := (look step "duration_ms").elim (-1) wholeMs }
  else if key = "fault" then { base with kind := .fault, name := (asText val).getD [] }
  else if key = "drift" then { base with kind := .drift, number := val.finite }
  else if key = "noise" then { base with kind := .noise, number := val.finite }
  else if key = "next_image" then { base with kind := .nextImage, name := (asText val).getD [] }
  else if key = "action" then
    { base with
      kind := .action
      name := (asText val).getD []
      text := actionText step val
      center := ((look step "value").bind (look · "center")).map Json.finite
      range := ((look step "value").bind (look · "range")).map Json.finite
      expect_reply := (look step "expect_reply").bind asText }
  else { base with kind := .expect, expect := describedExpect fun a => look val a.key }

def described (step : Json D JsString) : Step (Option ℚ) :=
  let base : Step (Option ℚ) :=
    { at_ms := (look step "at_ms").elim 0 wholeMs, x := some 0, y := some 0, number := some 0 }
  match present step with
  | [key] => describedBody base step key ((look step key).getD .null)
  | _ => base

def stepsOf (script : Json D JsString) : List (Json D JsString) :=
  match look script "steps" with
  | some (.array steps) => steps
  | _ => []

/-- **The simulator reads the script as the page has it**: it accepts the script's text,
with a step for each of the page's. -/
def ReadAlike (script : Json D JsString) : Prop :=
  ∃ (doc : SimJson.Value D) (read : SimScript.Script D),
    SimJson.parse (textBytes script) = .ok doc ∧
    SimScript.parseScript doc = .ok read ∧
    read.steps.map Step.values = (stepsOf script).map described

/-- The version of a flash step takes no more room in UTF-8 than the simulator has. -/
def ShortVersion (step : Json D JsString) : Prop :=
  (look step "action").any (isText "flash") = true → ∀ version,
    look step "version" = some (.string version) → (encode version).length ≤ 31

/-- No surrogate is alone, and no flash version is longer than 31 bytes. -/
def Portable (script : Json D JsString) : Prop :=
  Json.AllPaired script ∧ ∀ step ∈ stepsOf script, ShortVersion step

end PageScript

end OmegaStick
