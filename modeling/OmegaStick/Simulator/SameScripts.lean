import OmegaStick.Simulator.SameSteps

/-!
# The scripts the page accepts, read by the simulator

An accepted script stands no deeper than the simulator reads (`fits_script`), so its text is
parsed unless a surrogate in it is alone, and its steps are read unless a flash version is
too long in UTF-8.  With that the two agree on exactly the portable scripts
(`readAlike_iff_portable`).
-/

namespace OmegaStick

open Json (JsString AllPaired textBytes)
open Utf16
open SimJson (Value readBack readMember kMaxDepth)
open SimScript

namespace PageScript

variable {D : Type} [DoubleText D]

/-! ## Depth -/

section Depth

variable {step val : Json D JsString} {key : String} {at_ : JsString}

omit [DoubleText D] in
theorem fits_of_isTextOf {least most : ℕ} {v : Json D JsString}
    (h : isTextOf least most v = true) : v.Fits 1 := by
  cases v with
  | string s => trivial
  | _ => cases h

theorem fits_of_finite {q : ℚ} {v : Json D JsString} (h : v.finite = some q) : v.Fits 1 := by
  cases v with
  | number n => trivial
  | _ => cases h

theorem fits_of_validateSimExpect [LawfulDoubleText D] (h : validateSimExpect val at_ = []) :
    val.Fits 2 := by
  unfold validateSimExpect at h
  split_ifs at h with hempty
  cases val with
  | object members =>
      intro m hm
      obtain ⟨key, -, haccepts⟩ := exists_assertion (List.flatMap_eq_nil_iff.mp h m hm)
      exact Assertion.fits_of_accepts haccepts
  | _ => exact absurd rfl hempty

/-- What stands under the action key is flat, or a list or an object of what is. -/
theorem fits_of_validateKind [LawfulDoubleText D] (hkey : key ∈ simStepKeys)
    (h : validateKind step key val at_ = []) : val.Fits 2 := by
  simp only [simStepKeys, List.mem_cons, List.not_mem_nil, or_false] at hkey
  rcases hkey with rfl | rfl | rfl | rfl | rfl | rfl | rfl | rfl
  · have hval := addUnless_eq_nil.mp h
    cases val with
    | array items =>
        rw [Bool.and_eq_true, List.all_eq_true] at hval
        exact fun item hitem => fits_of_isWithin (hval.2 item hitem)
    | _ => cases hval
  · exact (fits_of_includes (addUnless_eq_nil.mp (List.append_eq_nil_iff.mp h).1)).succ
  · exact (fits_of_includes (addUnless_eq_nil.mp h)).succ
  · exact (fits_of_isWithin (addUnless_eq_nil.mp h)).succ
  · exact (fits_of_isWithin (addUnless_eq_nil.mp h)).succ
  · exact (fits_of_includes (addUnless_eq_nil.mp h)).succ
  · obtain ⟨a, -, rfl, -⟩ := parts_of_validateSimAction h
    trivial
  · exact fits_of_validateSimExpect h

theorem finite_of_dz {v n : Json D JsString} {onPurpose : Bool} {k hiText : String} {hi : ℚ}
    (h : dz v onPurpose at_ k hi hiText = []) (hlook : v.find (units k) = some n) :
    n.Fits 1 := by
  unfold dz at h
  rw [hlook] at h
  dsimp only at h
  cases hq : n.finite with
  | none =>
      rw [hq] at h
      cases h
  | some q => exact fits_of_finite hq

theorem fits_of_validateValue {a : String} {v : Json D JsString}
    (hlook : look step "value" = some v)
    (hkeys : v.distinctKeys = true) (h : (validateValue step (units a) at_).1 = []) :
    v.Fits 2 := by
  unfold validateValue at h
  change step.find (units "value") = some v at hlook
  rw [hlook] at h
  by_cases hmode : a = "set_mode"
  · rw [if_pos (congrArg units hmode)] at h
    exact (fits_of_includes (addUnless_eq_nil.mp h)).succ
  rw [if_neg (units_ne hmode)] at h
  by_cases hnudge : a = "set_nudge_enabled"
  · rw [if_pos (congrArg units hnudge)] at h
    exact (fits_of_isBool (addUnless_eq_nil.mp h)).succ
  rw [if_neg (units_ne hnudge)] at h
  by_cases hdeadzone : a = "set_deadzone"
  swap
  · -- no other action takes a value
    rw [if_neg (units_ne hdeadzone)] at h
    exact absurd (addUnless_eq_nil.mp h) Bool.false_ne_true
  rw [if_pos (congrArg units hdeadzone)] at h
  cases v with
  | object members =>
      obtain ⟨h, hrange⟩ := List.append_eq_nil_iff.mp h
      obtain ⟨h, hcenter⟩ := List.append_eq_nil_iff.mp h
      -- a set_deadzone value holds numbers
      have hnames := unexpected_eq_nil.mp (List.append_eq_nil_iff.mp h).2
      have hnodup := (Json.distinctKeys_object.mp hkeys).1
      intro m hm
      obtain ⟨k, hk, hmk⟩ := hnames m hm
      have hfind := Json.find_of_mem hnodup hm
      rw [hmk] at hfind
      rcases List.mem_pair.mp hk with rfl | rfl
      · exact finite_of_dz hcenter hfind
      · exact finite_of_dz hrange hfind
  | _ => cases h

omit [DoubleText D] in
/-- What a step may hold besides its time and its action. -/
theorem side_of_mem_allowed {k : String} (hk : k ∈ allowed key val) :
    k = "at_ms" ∨ k = key ∨ (key = "pattern" ∧ k = "duration_ms") ∨
      (key = "action" ∧ (k = "value" ∨ k = "expect_reply" ∨
        k = "version" ∧ isText "flash" val = true)) := by
  unfold allowed at hk
  rcases List.mem_append.mp hk with hk | hk
  · rcases List.mem_append.mp hk with hk | hk
    · rcases List.mem_pair.mp hk with rfl | rfl
      · exact .inl rfl
      · exact .inr (.inl rfl)
    · by_cases hpattern : key = "pattern"
      · rw [if_pos hpattern] at hk
        exact .inr (.inr (.inl ⟨hpattern, List.mem_singleton.mp hk⟩))
      · rw [if_neg hpattern] at hk
        cases hk
  · by_cases haction : key = "action"
    swap
    · rw [if_neg haction] at hk
      cases hk
    rw [if_pos haction] at hk
    refine .inr (.inr (.inr ⟨haction, ?_⟩))
    rcases List.mem_append.mp hk with hk | hk
    · rcases List.mem_pair.mp hk with rfl | rfl
      · exact .inl rfl
      · exact .inr (.inl rfl)
    · by_cases hflash : isText "flash" val = true
      · rw [if_pos hflash] at hk
        exact .inr (.inr ⟨List.mem_singleton.mp hk, hflash⟩)
      · rw [if_neg hflash] at hk
        cases hk

/-- A step's other members are flat too, a `set_deadzone` value apart. -/
theorem fits_side (h : Accepted step key val at_) (hkeys : step.distinctKeys = true)
    (hat : ∀ v, look step "at_ms" = some v → v.Fits 1) {k : String} (hk : k ∈ allowed key val)
    (hne : k ≠ key) {v : Json D JsString} (hlook : look step k = some v) : v.Fits 2 := by
  have hkind := h.kind
  -- the time, the action itself, a pattern's duration, and what goes with an action
  rcases side_of_mem_allowed hk with rfl | hsame | ⟨rfl, rfl⟩ | ⟨rfl, hside⟩
  · exact (hat v hlook).succ
  · exact absurd hsame hne
  · have hduration := addUnless_eq_nil.mp (List.append_eq_nil_iff.mp hkind).2
    change optional (isWithin 0 simMaxAtMs) (look step "duration_ms") = true at hduration
    rw [hlook] at hduration
    exact (fits_of_isWithin hduration).succ
  · obtain ⟨a, -, rfl, hreply, hvalue, hversion⟩ := parts_of_validateSimAction hkind
    rcases hside with rfl | rfl | ⟨rfl, hflash⟩
    · exact fits_of_validateValue hlook (distinctKeys_look hkeys hlook) hvalue
    · rw [hlook] at hreply
      exact (fits_of_includes hreply).succ
    · obtain rfl : a = "flash" := units_inj.mp (of_decide_eq_true hflash)
      have hversion := hversion rfl
      rw [validateVersion, if_pos rfl] at hversion
      have htext := addUnless_eq_nil.mp hversion
      change optional (isTextOf 1 31) (look step "version") = true at htext
      rw [hlook] at htext
      exact (fits_of_isTextOf htext).succ

theorem fits_step [LawfulDoubleText D] (h : Accepted step key val at_)
    (hkeys : step.distinctKeys = true) (hat : ∀ v, look step "at_ms" = some v → v.Fits 1) :
    step.Fits 3 := by
  have hisObj := h.isObj
  cases step with
  | object members =>
      intro m hm
      obtain ⟨k, hk, hmk⟩ := h.keys m hm
      have hlook : look (.object members) k = some m.2 := by
        refine Json.find_of_mem (Json.distinctKeys_object.mp hkeys).1 ?_
        rw [← hmk]
        exact hm
      by_cases hne : k = key
      · subst hne
        obtain rfl := Option.some.inj (hlook.symm.trans h.look_key)
        exact fits_of_validateKind (mem_simStepKeys h) h.kind
      · exact fits_side h hkeys hat hk hne hlook
  | _ => cases hisObj

theorem fits_steps [LawfulDoubleText D] {steps : List (Json D JsString)} {i : ℕ}
    {prev : Option ℚ} (h : validateSteps i prev steps = [])
    (hkeys : ∀ step ∈ steps, step.distinctKeys = true) : ∀ step ∈ steps, step.Fits 3 := by
  induction steps generalizing i prev with
  | nil => exact nofun
  | cons step rest ih =>
      obtain ⟨hstep, hrest⟩ := List.append_eq_nil_iff.mp h
      obtain ⟨hk, hkRest⟩ := List.forall_mem_cons.mp hkeys
      obtain ⟨key, val, at_, v, q, hacc, hlook, hv, -, -, -⟩ := step_of_validateSteps hstep
      refine List.forall_mem_cons.mpr ⟨fits_step hacc hk fun w hw => ?_, ih hrest hkRest⟩
      obtain rfl := Option.some.inj (hlook.symm.trans hw)
      exact fits_of_isWithin hv

end Depth

/-! ## The envelope -/

/-- What the page has checked of a script. -/
structure AcceptedScript (script : Json D JsString) (version : Json D JsString)
    (steps : List (Json D JsString)) : Prop where
  isObj : isObj script = true
  look_version : look script "version" = some version
  finite_version : version.finite = some 1
  name : optional (isTextOf 0 200) (look script "name") = true
  keys : ∀ m ∈ script.members, ∃ k ∈ ["version", "name", "steps"], m.1 = units k
  look_steps : look script "steps" = some (.array steps)
  length_le : steps.length ≤ simScriptMaxSteps
  steps : validateSteps 0 none steps = []

theorem acceptedScript_of_ok {textEncoder : Bool} {script : Json D JsString}
    (h : (validateSimScript textEncoder script).ok = true) :
    ∃ version steps, AcceptedScript script version steps := by
  have hmessages : messages textEncoder script = [] := by
    have htake := List.isEmpty_iff.mp h
    cases hm : messages textEncoder script with
    | nil => rfl
    | cons message rest =>
        rw [hm] at htake
        cases htake
  unfold messages at hmessages
  -- every check that fails leaves a message
  by_cases hobj : isObj script = true
  swap
  · rw [if_pos (by simpa using hobj)] at hmessages
    cases hmessages
  rw [if_neg (by simpa using hobj)] at hmessages
  by_cases hsize : simScriptMaxBytes < textSize textEncoder script
  · rw [if_pos hsize] at hmessages
    cases hmessages
  rw [if_neg hsize] at hmessages
  obtain ⟨henvelope, hsteps⟩ := List.append_eq_nil_iff.mp hmessages
  obtain ⟨henvelope, hkeys⟩ := List.append_eq_nil_iff.mp henvelope
  obtain ⟨hversion, hname⟩ := List.append_eq_nil_iff.mp henvelope
  obtain ⟨version, hlook, hone⟩ := exists_of_required (addUnless_eq_nil.mp hversion)
  cases hfind : script.find (units "steps") with
  | none =>
      rw [hfind] at hsteps
      cases hsteps
  | some v =>
      rw [hfind] at hsteps
      cases v with
      | array steps =>
          dsimp only at hsteps
          by_cases hmany : simScriptMaxSteps < steps.length
          · rw [if_pos hmany] at hsteps
            cases hsteps
          rw [if_neg hmany] at hsteps
          exact ⟨version, steps, hobj, hlook, of_decide_eq_true hone, addUnless_eq_nil.mp hname,
            unexpected_eq_nil.mp hkeys, hfind, not_lt.mp hmany, hsteps⟩
      | _ => cases hsteps

section Script

variable {script version : Json D JsString} {steps : List (Json D JsString)}

theorem stepsOf_eq (h : AcceptedScript script version steps) : stepsOf script = steps := by
  rw [stepsOf, h.look_steps]

variable [LawfulDoubleText D]

theorem fits_script (h : AcceptedScript script version steps)
    (hkeys : script.distinctKeys = true) : script.Fits (kMaxDepth + 1) := by
  have hsteps : (Json.array steps : Json D JsString).Fits 4 :=
    fits_steps h.steps (Json.distinctKeys_array.mp (distinctKeys_look hkeys h.look_steps))
  have hisObj := h.isObj
  have hmembers := h.keys
  cases script with
  | object members =>
      refine Json.Fits.mono (show 5 ≤ _ by decide) fun m hm => ?_
      obtain ⟨k, hk, hmk⟩ := hmembers m hm
      have hlook : look (.object members) k = some m.2 := by
        refine Json.find_of_mem (Json.distinctKeys_object.mp hkeys).1 ?_
        rw [← hmk]
        exact hm
      simp only [List.mem_cons, List.not_mem_nil, or_false] at hk
      -- version, name and steps
      rcases hk with rfl | rfl | rfl
      · obtain rfl := Option.some.inj (hlook.symm.trans h.look_version)
        exact (fits_of_finite h.finite_version).mono (by decide)
      · have hname := h.name
        rw [hlook] at hname
        exact (fits_of_isTextOf hname).mono (by decide)
      · rw [← Option.some.inj (h.look_steps.symm.trans hlook)]
        exact hsteps
  | _ => cases hisObj

/-- The simulator gets to the steps of an accepted script. -/
theorem parseScript_eq (h : AcceptedScript script version steps) (hpaired : AllPaired script) :
    parseScript (readBack script) =
      parseSteps 0 0 (steps.map readBack) >>= fun read =>
        .ok ⟨((look script "name").bind asText).getD (bytes "script"), read⟩ := by
  have hname := stringOr_readBack hpaired "name" "script"
  have hversion := find_readBack hpaired "version"
  have hsteps := find_readBack hpaired "steps"
  rw [h.look_version] at hversion
  rw [h.look_steps, Option.map_some, SimJson.readBack_array] at hsteps
  obtain ⟨n, hn, hone⟩ := exists_number h.finite_version
  rw [Option.map_some, hn] at hversion
  have hisObj := h.isObj
  cases script with
  | object members =>
      rw [SimJson.readBack_object] at hname hversion hsteps ⊢
      have hsupported : ¬ (((Json.object (members.map readMember) : Value D).find
          (bytes "version")).any fun v => !isVersion v) = true := by
        rw [hversion, Option.any_some, isVersion, Json.finite, hone]
        simp
      have hfew : ¬ kMaxScriptSteps < (steps.map readBack).length := by
        rw [List.length_map]
        exact not_lt.mpr h.length_le
      rw [parseScript, if_neg hsupported, hsteps]
      dsimp only
      rw [if_neg hfew, hname]
  | _ => cases hisObj

theorem readAlike_of_portable (h : AcceptedScript script version steps)
    (hkeys : script.distinctKeys = true) (hportable : Portable script) : ReadAlike script := by
  obtain ⟨hpaired, hshort⟩ := hportable
  rw [stepsOf_eq h] at hshort
  have hlook := h.look_steps
  obtain ⟨read, hread, hsame⟩ := parseSteps_readBack h.steps
    (Json.allPaired_array.mp (allPaired_look hpaired hlook))
    (Json.distinctKeys_array.mp (distinctKeys_look hkeys hlook)) hshort 0 (.inl ⟨rfl, rfl⟩)
  refine ⟨readBack script, ⟨((look script "name").bind asText).getD (bytes "script"), read⟩,
    SimJson.parse_textBytes (fits_script h hkeys) hkeys hpaired, ?_, ?_⟩
  · rw [parseScript_eq h hpaired, hread]
    rfl
  · rw [stepsOf_eq h]
    exact hsame

theorem portable_of_readAlike (h : AcceptedScript script version steps)
    (hkeys : script.distinctKeys = true) (halike : ReadAlike script) : Portable script := by
  obtain ⟨doc, read, hdoc, hread, -⟩ := halike
  -- the reader refuses a surrogate that stands alone
  have hpaired : AllPaired script := by
    by_contra hnot
    obtain ⟨e, he⟩ := SimJson.parse_of_not_paired (fits_script h hkeys) hkeys hnot
    rw [he] at hdoc
    cases hdoc
  refine ⟨hpaired, ?_⟩
  -- a version that is too long in UTF-8 is refused by the step that flashes it
  by_contra hlong
  push Not at hlong
  rw [stepsOf_eq h] at hlong
  have hlook := h.look_steps
  obtain ⟨e, he⟩ := parseSteps_of_long h.steps
    (Json.allPaired_array.mp (allPaired_look hpaired hlook))
    (Json.distinctKeys_array.mp (distinctKeys_look hkeys hlook)) hlong 0 0
  rw [SimJson.parse_textBytes (fits_script h hkeys) hkeys hpaired] at hdoc
  obtain rfl := Except.ok.inj hdoc
  rw [parseScript_eq h hpaired, he] at hread
  cases hread

/-- **The page and the simulator agree on exactly the portable scripts.** -/
theorem readAlike_iff_portable {textEncoder : Bool} (hkeys : script.distinctKeys = true)
    (h : (validateSimScript textEncoder script).ok = true) :
    ReadAlike script ↔ Portable script := by
  obtain ⟨version, steps, hacc⟩ := acceptedScript_of_ok h
  exact ⟨portable_of_readAlike hacc hkeys, readAlike_of_portable hacc hkeys⟩

end Script

/-! ## Concrete scripts -/

/-- One step that flashes an image of this version. -/
def flashScript (version : JsString) : Json ℤ JsString :=
  .object [(units "version", .number 1),
    (units "steps", .array [.object [(units "at_ms", .number 0),
      (units "action", .string (units "flash")), (units "version", .string version)]])]

/-- An ordinary version is read alike. -/
theorem readAlike_flashScript :
    ReadAlike (flashScript (units "2.1.0")) ↔ Portable (flashScript (units "2.1.0")) :=
  @readAlike_iff_portable _ _ _ _ true (by decide +kernel) (by decide +kernel)

/-- **Sixteen letters of two bytes each**: the page accepts the version, the simulator does
not. -/
theorem not_readAlike_flashScript :
    (flashScript (List.replicate 16 0xE9)).distinctKeys = true ∧
      (validateSimScript true (flashScript (List.replicate 16 0xE9))).ok = true ∧
      ¬ ReadAlike (flashScript (List.replicate 16 0xE9)) := by
  have hkeys : (flashScript (List.replicate 16 0xE9)).distinctKeys = true := by decide +kernel
  have hok : (validateSimScript true (flashScript (List.replicate 16 0xE9))).ok = true := by
    decide +kernel
  refine ⟨hkeys, hok, fun halike => ?_⟩
  obtain ⟨version, steps, hacc⟩ := acceptedScript_of_ok hok
  obtain ⟨-, hshort⟩ := portable_of_readAlike hacc hkeys halike
  have hlength := hshort _ List.mem_cons_self (by decide +kernel) (List.replicate 16 0xE9)
    (by rfl)
  exact absurd hlength (by decide +kernel)

end PageScript

end OmegaStick
