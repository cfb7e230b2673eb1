import OmegaStick.Console.Transactions
import OmegaStick.Console.Payloads

/-!
# What the console makes of a firmware's answers

`refreshFwInfo`'s decoder, `decideOutcome` and `judgeConfirmCheck`, from
`calibration_console.html` and `omega_protocol.js`.  The texts these show to the
person are left out; the texts of errors are kept, since the checks read them.
-/

namespace OmegaStick

namespace Console

/-! ## FW_INFO -/

/-- A decoded FW_INFO. -/
structure FwInfo where
  pending : Bool
  project : JsString
  version : JsString
  date : JsString
  time : JsString
  idf : JsString
  running : JsString
  sha : JsString
  boot : JsString
  prevLabel : JsString
  prevVersion : JsString
  prevDate : JsString
  prevTime : JsString
  prevState : JsString
  deriving DecidableEq, Repr

section Decode

variable [BrowserText]

/-- `str`: a string that is missing reads as empty. -/
def fwString : Reader JsString := fun rest =>
  match rest with
  | [] => ([], [])
  | n :: rest => (BrowserText.decode (rest.take n.toNat), rest.drop n.toNat)

/-- What `refreshFwInfo` reads off a FW_INFO payload. -/
def readFwInfo (payload : List UInt8) : FwInfo :=
  let strings : Reader FwInfo := do
    let project ← fwString
    let version ← fwString
    let date ← fwString
    let time ← fwString
    let idf ← fwString
    let running ← fwString
    let sha ← fwString
    let boot ← fwString
    let prevLabel ← fwString
    let prevVersion ← fwString
    let prevDate ← fwString
    let prevTime ← fwString
    let prevState ← fwString
    pure
      { pending := payload.head? = some 1
        project, version, date, time, idf, running, sha, boot
        prevLabel, prevVersion, prevDate, prevTime
        prevState := if prevState.isEmpty then js "unknown (older firmware)" else prevState }
  (strings (payload.drop 2)).1

end Decode

/-! ## The outcome of an update -/

/-- A build: its version, and its SHA where that is known. -/
structure Build where
  version : JsString
  sha : JsString
  deriving DecidableEq, Repr

/-- `upd.expected`, as far as the outcome goes. -/
structure Expected extends Build where
  before : Build
  deriving DecidableEq, Repr

/-- The states of `decideOutcome`. -/
inductive Outcome where
  | confirming
  | confirmed
  | rolledBack
  | notRestarted
  | unexpected
  | sameBuild
  | noDevice
  deriving DecidableEq, Repr

section Decide

variable [BrowserText]

/-- `sameAs`: with a SHA unknown on either side the version decides alone. -/
def Build.sameAs (a b : Build) : Bool :=
  if a.version.isEmpty || b.version.isEmpty || a.version != b.version then false
  else
    let x := BrowserText.toLowerCase a.sha
    let y := BrowserText.toLowerCase b.sha
    let n := min x.length y.length
    decide (n < 8) || x.take n == y.take n

def FwInfo.build (info : FwInfo) : Build := ⟨info.version, info.sha⟩

def decideOutcome (expected : Expected) (after : Option FwInfo) : Outcome :=
  match after with
  | none => .noDevice
  | some after =>
      if after.version.isEmpty then .noDevice
      else
        let isNew := after.build.sameAs expected.toBuild
        let isOld := after.build.sameAs expected.before
        let switched := !after.pending && !after.boot.isEmpty && !after.running.isEmpty &&
          after.boot != after.running
        if isNew && isOld then
          if after.pending then .confirming
          else if switched then .notRestarted
          else .sameBuild
        else if isNew then
          if after.pending then .confirming else .confirmed
        else if isOld then
          if switched then .notRestarted else .rolledBack
        else .unexpected

/-- The device runs the expected build, and has not been told to keep it. -/
def FwInfo.Expects (info : FwInfo) (expected : Expected) : Prop :=
  info.build.sameAs expected.toBuild = true ∧ info.pending = true

/-- `confirming` is the expected build, pending. -/
theorem decideOutcome_confirming_iff {expected : Expected} {after : Option FwInfo} :
    decideOutcome expected after = .confirming ↔
      ∃ info, after = some info ∧ info.Expects expected := by
  unfold decideOutcome
  cases after with
  | none => simp
  | some info =>
      simp only [Option.some.injEq, exists_eq_left', FwInfo.Expects]
      cases hversion : info.version.isEmpty with
      | true => simp [Build.sameAs, FwInfo.build, hversion]
      | false =>
          cases info.build.sameAs expected.toBuild <;> cases info.build.sameAs expected.before <;>
            cases info.pending <;> simp <;> split <;> simp

end Decide

/-! ## Errors -/

/-- The string with its ASCII letters lowered, for a pattern without case. -/
def foldCase (text : JsString) : JsString := text.map fun c => if 65 ≤ c ∧ c ≤ 90 then c + 32 else c

/-- `/pattern/i.test(text)` -/
def includesNoCase (text pattern : JsString) : Bool := includes (foldCase text) (foldCase pattern)

/-- `/\(code (\d+)\)/.exec(text)[1]`: the first number that is given as a code. -/
def errorCode (text : JsString) : Option JsString :=
  text.tails.findSome? fun rest =>
    let marker := js "(code "
    let digits := (rest.drop marker.length).takeWhile fun c => 48 ≤ c && c ≤ 57
    if marker.isPrefixOf rest && !digits.isEmpty &&
        (js ")").isPrefixOf (rest.drop (marker.length + digits.length)) then some digits
    else none

/-- `describeUpdateError(raw).category === "unsupported"`. The categories before
it take what they match. -/
def unsupported (text : JsString) : Bool :=
  !(foldCase (js "not connected")).isPrefixOf (foldCase text) &&
    !(includesNoCase text (js "transport lost") || includesNoCase text (js "disconnected") ||
      includesNoCase text (js "upload cancelled") || includesNoCase text (js "NetworkError") ||
      includesNoCase text (js "device has been lost")) &&
    !includesNoCase text (js "OTA_BEGIN refused: the running image is not confirmed yet") &&
    !includesNoCase text (js "timed out") &&
    (includesNoCase text (js "Function not implemented") ||
      includesNoCase text (js "not wired on this build") ||
      includesNoCase text (js "function_not_supported") || errorCode text == some (js "88"))

/-! ## The checks -/

/-- `CONFIRM_CHECKS`, with what each gathers. -/
inductive Gathered where
  | firmware (expected : Expected) (after : Option FwInfo)
  | protocol (error : Option JsString)
  | sensor (read : Except JsString DecodedDiagnostics)

/-- What `judgeConfirmCheck` returns, but for the message. -/
structure Judgement where
  ok : Bool
  skipped : Bool := false
  alreadyConfirmed : Bool := false
  wait : Bool := false
  deriving DecidableEq, Repr

/-- `SENSOR_NOT_OBSERVED` of the console. -/
def sensorNotObservedCode : UInt8 := 3

/-- `judgeConfirmCheck` -/
def judgeConfirmCheck [BrowserText] : Gathered → Judgement
  | .firmware expected after =>
      match decideOutcome expected after with
      | .confirming => { ok := true }
      | .confirmed => { ok := true, alreadyConfirmed := true }
      | _ => { ok := false }
  | .protocol none => { ok := true }
  | .protocol (some _) => { ok := false }
  | .sensor (.error message) =>
      if unsupported message then { ok := true, skipped := true } else { ok := false }
  | .sensor (.ok diagnostics) =>
      if diagnostics.sensorFault = sensorNotObservedCode then { ok := false, wait := true }
      else { ok := decide (diagnostics.sensorFault = 0) }

end Console

end OmegaStick
