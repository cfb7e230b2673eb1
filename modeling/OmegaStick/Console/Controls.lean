import OmegaStick.Console.Exchange
import OmegaStick.Device.Limits

/-!
# The page's own checks

Before a SET request goes out the page checks what is in its input fields, with
the limits the device enforces.  The page checks numbers as it has them, the
device the floats they are rounded to.  As rounding is monotone and the limits
are floats, the device refuses nothing the page lets through, except for what
rounds out of the range of a float or to zero; and what the page alone refuses
rounds onto a limit, or is a time the device does not check.
-/

namespace OmegaStick

namespace Console

open FloatBits MachineFloat FloatOrder JsNumber SetRequest TransitionSystem

/-- A JavaScript number, as the page's checks see it. -/
class PageNumber (N : Type*) extends JsNumber N where
  /-- `Number.isFinite` -/
  isFinite : N → Bool
  /-- `x < y` -/
  lt : N → N → Bool
  /-- The value of a literal. -/
  literal : ℚ → N

/-- The limits of the settings. -/
def settingLimits : List ℚ := [0, 1 / 10, 1 / 2, 1]

/-- What IEEE 754 guarantees of rounding a number of the page to a float: it is monotone,
and a limit of the page is rounded to the device's. -/
class Narrowing (F N : Type*) [MachineFloat F] [FloatBits F] [PageNumber N] : Prop where
  arg_le {q : ℚ} {x : N} : q ∈ settingLimits → PageNumber.isFinite x = true →
    PageNumber.lt (PageNumber.literal q) x = false → fle (arg F x) (ofRat q) = true
  le_arg {q : ℚ} {x : N} : q ∈ settingLimits → PageNumber.isFinite x = true →
    PageNumber.lt (PageNumber.literal q) x = true → fle (ofRat q) (arg F x) = true
  zero_le_arg {x : N} : PageNumber.isFinite x = true →
    PageNumber.lt x (PageNumber.literal 0) = false → fle (ofRat 0) (arg F x) = true
  arg_le_zero {x : N} : PageNumber.isFinite x = true →
    PageNumber.lt x (PageNumber.literal 0) = true → fle (arg F x) (ofRat 0) = true
  /-- NaN stays NaN, and an infinity an infinity. -/
  not_isFinite_arg {x : N} : PageNumber.isFinite x = false → isFinite (arg F x) = false
  /-- Between two limits there is no infinity. -/
  isFinite_of_between {v : F} {q : ℚ} : q ∈ settingLimits → fle (ofRat 0) v = true →
    fle v (ofRat q) = true → isFinite v = true

/-! ## The handlers of the page -/

/-- A click on a control, with what its input fields are parsed to. -/
inductive Click (N : Type*) where
  | applyManualOffset (x y : N)
  | applyDeadzone (centerOn : Bool) (centerVal : N) (rangeOn : Bool) (rangeVal : N)
  | applyNudge (enter exit timeMs : N)
  | nudgeEnabled (enabled : Bool)
  deriving DecidableEq, Repr

namespace Click

variable {N : Type*}

/-- What is sent when the checks pass. -/
def request : Click N → SetRequest N
  | applyManualOffset x y => .setManualOffset x y
  | applyDeadzone centerOn centerVal rangeOn rangeVal =>
      .setDeadzoneOverride centerOn centerVal rangeOn rangeVal
  | applyNudge enter exit timeMs => .setNudgeSettings enter exit timeMs
  | nudgeEnabled enabled => .setNudgeEnabled enabled

variable [PageNumber N]

open PageNumber

/-- `MAX_CENTER_DEADZONE` -/
def maxCenterDeadzone : N := literal (1 / 2)

/-- `MAX_RANGE_DEADZONE` -/
def maxRangeDeadzone : N := literal (1 / 10)

/-- The request that is sent, or what is logged instead. -/
def submit (c : Click N) : Except String (SetRequest N) :=
  match c with
  | applyManualOffset x y =>
      if !isFinite x || !isFinite y then .error "Manual offset: enter a number for both X and Y."
      else .ok c.request
  | applyDeadzone centerOn centerVal rangeOn rangeVal =>
      if centerOn && !isFinite centerVal then
        .error "Center deadzone override: enter a number first."
      else if rangeOn && !isFinite rangeVal then
        .error "Range deadzone override: enter a number first."
      else if centerOn && (lt centerVal (literal 0) || lt maxCenterDeadzone centerVal) then
        .error "Center deadzone override must be between 0 and 0.5."
      else if rangeOn && (lt rangeVal (literal 0) || lt maxRangeDeadzone rangeVal) then
        .error "Range deadzone override must be between 0 and 0.1."
      else .ok c.request
  | applyNudge enter exit timeMs =>
      if !isFinite enter || !lt (literal 0) enter || lt (literal 1) enter then
        .error "Nudge enter threshold must be a number in (0, 1]."
      else if !isFinite exit || lt exit (literal 0) || lt (literal 1) exit then
        .error "Nudge exit threshold must be a number in [0, 1]."
      else if !isFinite timeMs || lt timeMs (literal 0) then
        .error "Nudge time window must be a non-negative number of milliseconds."
      else .ok c.request
  | nudgeEnabled _ => .ok c.request

/-- The numbers the device gets are numbers, and an enter threshold is not rounded to 0. -/
def Fits (F : Type*) [MachineFloat F] [FloatBits F] : Click N → Prop
  | applyManualOffset x y =>
      MachineFloat.isFinite (arg F x) = true ∧ MachineFloat.isFinite (arg F y) = true
  | applyNudge enter _ _ => flt (ofRat 0) (arg F enter) = true
  | applyDeadzone .. | nudgeEnabled _ => True

/-- A number off a limit that is rounded onto it. -/
def RoundedOnto (F : Type*) [MachineFloat F] [FloatBits F] (q : ℚ) (x : N) : Prop :=
  (lt x (literal q) = true ∨ lt (literal q) x = true) ∧
    fle (arg F x) (ofRat q) = true ∧ fle (ofRat q) (arg F x) = true

/-- Where the page's checks are stricter than the device's. -/
def Stricter (F : Type*) [MachineFloat F] [FloatBits F] : Click N → Prop
  | applyManualOffset .. | nudgeEnabled _ => False
  | applyDeadzone centerOn centerVal rangeOn rangeVal =>
      (centerOn = true ∧ (RoundedOnto F 0 centerVal ∨ RoundedOnto F (1 / 2) centerVal)) ∨
        (rangeOn = true ∧ (RoundedOnto F 0 rangeVal ∨ RoundedOnto F (1 / 10) rangeVal))
  | applyNudge enter exit timeMs =>
      RoundedOnto F 1 enter ∨ RoundedOnto F 0 exit ∨ RoundedOnto F 1 exit ∨
        isFinite timeMs = false ∨ lt timeMs (literal 0) = true

end Click

/-! ## One number, checked twice -/

section Agreement

variable {F N : Type*} [MachineFloat F] [FloatBits F] [PageNumber N]

open Click Narrowing

theorem mem_settingLimits :
    0 ∈ settingLimits ∧ 1 / 10 ∈ settingLimits ∧ 1 / 2 ∈ settingLimits ∧ 1 ∈ settingLimits := by
  simp [settingLimits]

/-- An override that is off is within every limit. -/
theorem all_override {on : Bool} {x : N} {limit : F}
    (h : on = true → OmegaStore.overrideInRange (arg F x) limit = true) :
    (override F on x).all (OmegaStore.overrideInRange · limit) = true := by
  cases on with
  | false => rfl
  | true => exact h rfl

theorem overrideInRange_of_all {on : Bool} {x : N} {limit : F} (hon : on = true)
    (h : (override F on x).all (OmegaStore.overrideInRange · limit) = true) :
    OmegaStore.overrideInRange (arg F x) limit = true := by
  subst hon
  exact h

variable [Narrowing F N]

theorem overrideInRange_arg {q : ℚ} (hq : q ∈ settingLimits) {x : N}
    (hfinite : PageNumber.isFinite x = true)
    (hlow : PageNumber.lt x (PageNumber.literal 0) = false)
    (hhigh : PageNumber.lt (PageNumber.literal q) x = false) :
    OmegaStore.overrideInRange (arg F x) (ofRat q) = true := by
  have hzero := zero_le_arg (F := F) hfinite hlow
  have hlimit := arg_le (F := F) hq hfinite hhigh
  simp only [OmegaStore.overrideInRange, isFinite_of_between (N := N) hq hzero hlimit, hzero,
    hlimit, Bool.and_self]

/-- An override the page refuses and the device accepts is rounded onto a limit. -/
theorem roundedOnto_of_overrideInRange {q : ℚ} (hq : q ∈ settingLimits) {x : N}
    (hfinite : PageNumber.isFinite x = true)
    (hrefused : PageNumber.lt x (PageNumber.literal 0) = true ∨
      PageNumber.lt (PageNumber.literal q) x = true)
    (haccepted : OmegaStore.overrideInRange (arg F x) (ofRat q) = true) :
    RoundedOnto F 0 x ∨ RoundedOnto F q x := by
  simp only [OmegaStore.overrideInRange, Bool.and_eq_true] at haccepted
  obtain ⟨⟨-, hzero⟩, hlimit⟩ := haccepted
  rcases hrefused with hlow | hhigh
  · exact .inl ⟨.inl hlow, arg_le_zero hfinite hlow, hzero⟩
  · exact .inr ⟨.inr hhigh, hlimit, le_arg hq hfinite hhigh⟩

variable [FloatOrder F]

/-- What the page lets through is within the device's limits when it fits a float. -/
theorem withinLimits_iff_fits {c : Click N} {request : SetRequest N} (h : c.submit = .ok request) :
    request = c.request ∧ (c.request.withinLimits F = true ↔ c.Fits F) := by
  obtain ⟨-, htenth, hhalf, hone⟩ := mem_settingLimits
  cases c with
  | nudgeEnabled enabled => exact ⟨(Except.ok.inj h).symm, iff_of_true rfl trivial⟩
  | applyManualOffset x y =>
      simp only [submit] at h
      split_ifs at h with hfinite
      refine ⟨(Except.ok.inj h).symm, ?_⟩
      simp only [Click.request, withinLimits, Fits, Bool.and_eq_true]
  | applyDeadzone centerOn centerVal rangeOn rangeVal =>
      simp only [submit] at h
      split_ifs at h with hcenter hrange hcenterLimit hrangeLimit
      refine ⟨(Except.ok.inj h).symm, iff_of_true ?_ trivial⟩
      simp only [Bool.and_eq_true, Bool.not_eq_true', Bool.or_eq_true, not_and, not_or,
        Bool.not_eq_false, Bool.not_eq_true] at hcenter hrange hcenterLimit hrangeLimit
      rw [Click.request, withinLimits, Bool.and_eq_true]
      refine ⟨all_override fun hon => ?_, all_override fun hon => ?_⟩
      · exact overrideInRange_arg hhalf (hcenter hon) (hcenterLimit hon).1 (hcenterLimit hon).2
      · exact overrideInRange_arg htenth (hrange hon) (hrangeLimit hon).1 (hrangeLimit hon).2
  | applyNudge enter exit timeMs =>
      simp only [submit] at h
      split_ifs at h with henter hexit htime
      refine ⟨(Except.ok.inj h).symm, ?_⟩
      simp only [Bool.or_eq_true, Bool.not_eq_true', not_or, Bool.not_eq_false,
        Bool.not_eq_true] at henter hexit
      have henterLimit : ¬ flt (ofRat 1) (arg F enter) = true :=
        (fle_iff.mp (arg_le (F := F) hone henter.1.1 henter.2)).2.2
      have hexitLimit : ¬ flt (ofRat 1) (arg F exit) = true :=
        (fle_iff.mp (arg_le (F := F) hone hexit.1.1 hexit.2)).2.2
      have hexitZero := zero_le_arg (F := F) hexit.1.1 hexit.1.2
      rw [Bool.not_eq_true] at henterLimit hexitLimit
      simp only [Click.request, withinLimits, Fits, henterLimit, hexitLimit, hexitZero,
        Bool.not_false, Bool.and_true]

/-- What the page alone refuses. -/
theorem stricter_of_submit {c : Click N} {text : String} (h : c.submit = .error text)
    (hlimits : c.request.withinLimits F = true) : c.Stricter F := by
  obtain ⟨-, htenth, hhalf, hone⟩ := mem_settingLimits
  cases c with
  | nudgeEnabled enabled => cases h
  | applyManualOffset x y =>
      simp only [Click.request, withinLimits, Bool.and_eq_true] at hlimits
      simp only [submit] at h
      split_ifs at h with hfinite
      simp only [Bool.or_eq_true, Bool.not_eq_true'] at hfinite
      rcases hfinite with hx | hy
      · exact Bool.noConfusion (hlimits.1.symm.trans (not_isFinite_arg (F := F) hx))
      · exact Bool.noConfusion (hlimits.2.symm.trans (not_isFinite_arg (F := F) hy))
  | applyDeadzone centerOn centerVal rangeOn rangeVal =>
      rw [Click.request, withinLimits, Bool.and_eq_true] at hlimits
      have hfinite : ∀ {on : Bool} {x : N} {limit : F},
          (override F on x).all (OmegaStore.overrideInRange · limit) = true →
            ¬ (on && !PageNumber.isFinite x) = true := by
        intro on x limit hall hbad
        simp only [Bool.and_eq_true, Bool.not_eq_true'] at hbad
        have hrange := overrideInRange_of_all hbad.1 hall
        simp only [OmegaStore.overrideInRange, Bool.and_eq_true] at hrange
        exact Bool.noConfusion (hrange.1.1.symm.trans (not_isFinite_arg (F := F) hbad.2))
      have hcenter := hfinite hlimits.1
      have hrange := hfinite hlimits.2
      simp only [submit, if_neg hcenter, if_neg hrange] at h
      simp only [Bool.and_eq_true, Bool.not_eq_true', not_and, Bool.not_eq_false]
        at hcenter hrange
      split_ifs at h with hcenterLimit hrangeLimit
      · rw [Bool.and_eq_true, Bool.or_eq_true] at hcenterLimit
        obtain ⟨hon, hrefused⟩ := hcenterLimit
        exact .inl ⟨hon, roundedOnto_of_overrideInRange hhalf (hcenter hon) hrefused
          (overrideInRange_of_all hon hlimits.1)⟩
      · rw [Bool.and_eq_true, Bool.or_eq_true] at hrangeLimit
        obtain ⟨hon, hrefused⟩ := hrangeLimit
        exact .inr ⟨hon, roundedOnto_of_overrideInRange htenth (hrange hon) hrefused
          (overrideInRange_of_all hon hlimits.2)⟩
  | applyNudge enter exit timeMs =>
      simp only [Click.request, withinLimits, Bool.and_eq_true, Bool.not_eq_true'] at hlimits
      obtain ⟨⟨henterZero, henterOne⟩, hexitZero, hexitOne⟩ := hlimits
      have henterLow : fle (ofRat 0) (arg F enter) = true :=
        fle_iff.mpr ⟨(numbers_of_flt henterZero).1, (numbers_of_flt henterZero).2,
          flt_asymm henterZero⟩
      have henterHigh : fle (arg F enter) (ofRat 1) = true :=
        fle_iff.mpr ⟨(numbers_of_flt henterZero).2, number_ofRat 1, by simp [henterOne]⟩
      have hexitHigh : fle (arg F exit) (ofRat 1) = true :=
        fle_iff.mpr ⟨(fle_iff.mp hexitZero).2.1, number_ofRat 1, by simp [hexitOne]⟩
      have hfinite : ∀ {x : N}, fle (ofRat 0) (arg F x) = true → fle (arg F x) (ofRat 1) = true →
          PageNumber.isFinite x = true := by
        intro x hlow hhigh
        by_contra hnot
        exact Bool.noConfusion ((isFinite_of_between (N := N) hone hlow hhigh).symm.trans
          (not_isFinite_arg (F := F) (Bool.not_eq_true _ ▸ hnot)))
      have henterFinite := hfinite henterLow henterHigh
      have hexitFinite := hfinite hexitZero hexitHigh
      simp only [submit, henterFinite, hexitFinite, Bool.not_true, Bool.false_or] at h
      split_ifs at h with henter hexit htime
      · simp only [Bool.or_eq_true, Bool.not_eq_true'] at henter
        rcases henter with hlow | hhigh
        · have hzero := arg_le (F := F) mem_settingLimits.1 henterFinite hlow
          exact absurd henterZero (fle_iff.mp hzero).2.2
        · exact .inl ⟨.inr hhigh, henterHigh, le_arg hone henterFinite hhigh⟩
      · simp only [Bool.or_eq_true] at hexit
        rcases hexit with hlow | hhigh
        · exact .inr (.inl ⟨.inl hlow, arg_le_zero hexitFinite hlow, hexitZero⟩)
        · exact .inr (.inr (.inl ⟨.inr hhigh, hexitHigh, le_arg hone hexitFinite hhigh⟩))
      · simp only [Bool.or_eq_true, Bool.not_eq_true'] at htime
        exact .inr (.inr (.inr htime))

variable {O R : Type*} [OtaEngine O] (cfg : CalibrationService.Config F R)

end Agreement

/-! ## A page with four numbers -/

/-- What may be typed in. -/
inductive Typed where
  | zero
  | tenth
  | half
  | one
  deriving DecidableEq, Repr

def Typed.value : Typed → ℚ
  | zero => 0
  | tenth => 1 / 10
  | half => 1 / 2
  | one => 1

instance : PageNumber Typed where
  float32 x := toBits x.value
  uint32 x := UInt32.ofInt x.value.floor
  uint8 x := UInt8.ofNat x.value.floor.toNat
  isFinite _ := true
  lt x y := x.value < y.value
  literal q := if q < 1 / 10 then .zero else if q < 1 / 2 then .tenth else if q < 1 then .half
    else .one

theorem Typed.arg_le_limit : ∀ q ∈ settingLimits, ∀ x ∈ [zero, tenth, half, one],
    (PageNumber.lt (PageNumber.literal q) x = false → fle (arg ℚ x) (ofRat q) = true) ∧
      (PageNumber.lt (PageNumber.literal q) x = true → fle (ofRat q) (arg ℚ x) = true) ∧
      fle (ofRat 0) (arg ℚ x) = true ∧ PageNumber.lt x (PageNumber.literal 0) = false := by
  decide +kernel

theorem Typed.mem_all (x : Typed) : x ∈ [zero, tenth, half, one] := by
  cases x <;> simp

instance : Narrowing ℚ Typed where
  arg_le hq _ := (Typed.arg_le_limit _ hq _ (Typed.mem_all _)).1
  le_arg hq _ := (Typed.arg_le_limit _ hq _ (Typed.mem_all _)).2.1
  zero_le_arg _ _ :=
    (Typed.arg_le_limit 0 mem_settingLimits.1 _ (Typed.mem_all _)).2.2.1
  arg_le_zero _ hneg :=
    nomatch (Typed.arg_le_limit 0 mem_settingLimits.1 _ (Typed.mem_all _)).2.2.2.symm.trans hneg
  not_isFinite_arg h := nomatch h
  isFinite_of_between _ _ _ := rfl

end Console

end OmegaStick
