import OmegaStick.Simulator.SameKinds

/-!
# An action the page accepts, read by the simulator

What goes with an action depends on its name.  `ActionReads` says that the simulator takes
it as the page describes it; a flash version is taken exactly when it is short enough in
UTF-8 (`actionReads_flash`, `parseActionValue_of_long`).
-/

namespace OmegaStick

open Json (JsString AllPaired)
open Utf16
open SimJson (Value readBack readMember)
open SimScript

namespace PageScript

variable {D : Type} [DoubleText D]

/-! ## Deadzones -/

section Deadzones

variable {members : List (JsString × Json D JsString)} {at_ : JsString}

theorem checkDeadzoneKeys_readBack (index : ℕ)
    (h : ∀ m ∈ members, ∃ key ∈ ["center", "range"], m.1 = units key) :
    checkDeadzoneKeys index (members.map readMember) = .ok () := by
  induction members with
  | nil => rfl
  | cons m rest ih =>
      obtain ⟨⟨key, hkey, hm⟩, hrest⟩ := List.forall_mem_cons.mp h
      have hknown : ¬ ((readMember m).1 ≠ bytes "center" ∧ (readMember m).1 ≠ bytes "range") := by
        rintro ⟨hcenter, hrange⟩
        have hbytes : (readMember m).1 = bytes key := by rw [readMember, hm, encode_units]
        rcases List.mem_pair.mp hkey with rfl | rfl
        · exact hcenter hbytes
        · exact hrange hbytes
      rw [List.map_cons]
      change ((if _ then _ else _) >>= fun _ => checkDeadzoneKeys index (rest.map readMember)) = _
      rw [if_neg hknown]
      exact ih hrest

variable [LawfulDoubleText D]

theorem limited_readBack {v : Json D JsString} (hpaired : AllPaired v) {onPurpose : Bool}
    {k hiText : String} (hi : Bound) (h : dz v onPurpose at_ k hi.value hiText = [])
    (index : ℕ) :
    ∃ c, limited (readBack v) onPurpose index k hi = .ok c ∧
      c.map DoubleText.value = (look v k).map Json.finite := by
  unfold dz at h
  rw [limited, find_readBack hpaired]
  change (match look v k with
    | none => []
    | some n => _) = _ at h
  cases hlook : look v k with
  | none => exact ⟨none, rfl, rfl⟩
  | some n =>
      rw [hlook] at h
      dsimp only at h
      cases hq : n.finite with
      | none =>
          rw [hq] at h
          cases h
      | some q =>
          rw [hq] at h
          have hrange := addUnless_eq_nil.mp h
          obtain ⟨n', hread, hn'⟩ := exists_number hq
          rw [Option.map_some, Option.map_some]
          dsimp only
          -- a value that is to be refused may be out of range
          cases onPurpose with
          | true =>
              refine ⟨some n', ?_, by rw [Option.map_some, hn', hq]⟩
              rw [if_pos rfl, hread]
              exact if_pos (by rw [hn']; rfl)
          | false =>
              have hwithin : isWithin zero.value hi.value n = true := by
                rw [isWithin, hq]
                exact hrange
              obtain ⟨m, hm, hv⟩ := numberIn_readBack _ _ hwithin index ("set_deadzone " ++ k)
              refine ⟨some m, ?_, by rw [Option.map_some, hv]⟩
              rw [if_neg Bool.false_ne_true, hm]
              rfl

end Deadzones

omit [DoubleText D] in
theorem exists_of_required {check : Json D JsString → Bool} {v : Option (Json D JsString)}
    (h : required check v = true) : ∃ w, v = some w ∧ check w = true := by
  cases v with
  | none => cases h
  | some w => exact ⟨w, rfl, h⟩

/-! ## The value and the version -/

section Actions

variable {step : Json D JsString} {at_ : JsString}

/-- The simulator takes what goes with the action `a` as the page describes it. -/
def ActionReads (st : Step D) (step : Json D JsString) (a : String) (index : ℕ) : Prop :=
  ∃ st', parseActionValue st (readBack step) index = .ok st' ∧
    st'.values = { st.values with
      text := actionText step (.string (units a))
      center := ((look step "value").bind (look · "center")).map Json.finite
      range := ((look step "value").bind (look · "range")).map Json.finite }

/-- The step before its action's value is read. -/
structure Before (st : Step D) (step : Json D JsString) (a : String) : Prop where
  name : st.name = bytes a
  text : st.text = []
  center : st.center = none
  range : st.range = none
  expect_reply : st.expect_reply = (look step "expect_reply").bind asText

/-- Only the text is set. -/
theorem Before.values_text {st : Step D} {a : String} (h : Before st step a)
    (text : List UInt8) : ({ st with text := text } : Step D).values =
      { st.values with text := text, center := none, range := none } := by
  simp [Step.values, h.center, h.range]

variable {st : Step D} (index : ℕ) (hpaired : AllPaired step)

include hpaired

theorem actionReads_set_mode (hst : Before st step "set_mode")
    (h : required (includes ["mouse", "xac"]) (look step "value") = true) :
    ActionReads st step "set_mode" index := by
  obtain ⟨v, hlook, hv⟩ := exists_of_required h
  obtain ⟨mode, hmode, rfl⟩ := exists_text hv
  have hknown : ¬ (encode (units mode) ≠ bytes "mouse" ∧ encode (units mode) ≠ bytes "xac") := by
    rw [encode_units, bytes_inj.ne, bytes_inj.ne]
    rintro ⟨hmouse, hxac⟩
    rcases List.mem_pair.mp hmode with rfl | rfl
    · exact hmouse rfl
    · exact hxac rfl
  refine ⟨{ st with text := encode (units mode) }, ?_, ?_⟩
  · rw [parseActionValue, if_pos hst.name, find_readBack hpaired, hlook]
    exact if_neg hknown
  · rw [hst.values_text, hlook, actionText, hlook]
    rfl

theorem actionReads_set_nudge_enabled (hst : Before st step "set_nudge_enabled")
    (h : required isBool (look step "value") = true) :
    ActionReads st step "set_nudge_enabled" index := by
  obtain ⟨v, hlook, hv⟩ := exists_of_required h
  have hmode : ¬ st.name = bytes "set_mode" := by
    rw [hst.name, bytes_inj]
    decide
  cases v with
  | bool enabled =>
      refine ⟨{ st with text := bytes (if enabled then "on" else "off") }, ?_, ?_⟩
      · rw [parseActionValue, if_neg hmode, if_pos hst.name, find_readBack hpaired, hlook]
        rfl
      · rw [hst.values_text, hlook, actionText, hlook]
        rfl
  | _ => cases hv

omit [DoubleText D] in
/-- Both sides know in the same way that the value is to be refused. -/
theorem onPurpose_readBack {a : String} (hst : Before st step a) :
    decide (st.expect_reply = some (bytes "invalid")) =
      required (isText "invalid") (step.find (units "expect_reply")) := by
  change _ = required (isText "invalid") (look step "expect_reply")
  rw [hst.expect_reply]
  cases hreply : look step "expect_reply" with
  | none => rfl
  | some r =>
      have hr := allPaired_look hpaired hreply
      cases r with
      | string s =>
          refine decide_eq_decide.mpr ?_
          rw [← encode_eq_bytes (Json.allPaired_string.mp hr)]
          exact Option.some_inj
      | _ => rfl

theorem actionReads_set_deadzone [LawfulDoubleText D] (hst : Before st step "set_deadzone")
    (h : (validateValue step (units "set_deadzone") at_).1 = []) :
    ActionReads st step "set_deadzone" index := by
  have hmode : ¬ st.name = bytes "set_mode" := by
    rw [hst.name, bytes_inj]
    decide
  have hnudge : ¬ st.name = bytes "set_nudge_enabled" := by
    rw [hst.name, bytes_inj]
    decide
  have hpurpose := onPurpose_readBack hpaired hst
  unfold validateValue at h
  rw [if_neg (by rw [units_inj]; decide), if_neg (by rw [units_inj]; decide), if_pos rfl] at h
  cases hlook : step.find (units "value") with
  | none =>
      rw [hlook] at h
      cases h
  | some v =>
      rw [hlook] at h
      cases v with
      | object members =>
          dsimp only at h
          -- the object's own checks: not empty, its keys, and each zone
          obtain ⟨h, hrangeZone⟩ := List.append_eq_nil_iff.mp h
          obtain ⟨h, hcenterZone⟩ := List.append_eq_nil_iff.mp h
          obtain ⟨hsome, hkeys⟩ := List.append_eq_nil_iff.mp h
          have hobject : AllPaired (.object members : Json D JsString) :=
            @allPaired_look _ _ _ hpaired "value" hlook
          have hvalue : look step "value" = some (.object members) := hlook
          obtain ⟨center, hcenter, hcenterValue⟩ :=
            limited_readBack hobject kMaxCenterDeadzone hcenterZone index
          obtain ⟨range, hrange, hrangeValue⟩ :=
            limited_readBack hobject kMaxRangeDeadzone hrangeZone index
          have hnonempty : ¬ (members.map readMember).isEmpty = true := by
            rw [List.isEmpty_map]
            simpa using addUnless_eq_nil.mp hsome
          -- the reader takes both zones, and the page reads the same two values
          refine ⟨{ st with center := center, range := range }, ?_, ?_⟩
          · rw [parseActionValue, if_neg hmode, if_neg hnudge, if_pos hst.name,
              find_readBack hpaired, hvalue, Option.map_some, SimJson.readBack_object]
            dsimp only
            rw [if_neg hnonempty, checkDeadzoneKeys_readBack index (unexpected_eq_nil.mp hkeys),
              hpurpose]
            rw [SimJson.readBack_object] at hcenter hrange
            change (limited _ _ _ _ _ >>= _) = _
            rw [hcenter]
            change (limited _ _ _ _ _ >>= _) = _
            rw [hrange]
            rfl
          · have htext : st.values.text = [] := hst.text
            rw [hvalue, actionText, hvalue]
            change { st.values with
              center := center.map DoubleText.value
              range := range.map DoubleText.value } = _
            rw [hcenterValue, hrangeValue, ← htext]
            rfl
      | _ => cases h

theorem parseActionValue_flash (hst : Before st step "flash") :
    parseActionValue st (readBack step) index =
      let version := ((look step "version").bind asText).getD (bytes "9.9.9-sim")
      if version.isEmpty ∨ 31 < version.length then
        fail index (bytes "flash version must be 1 to 31 characters")
      else .ok { st with text := version } := by
  have hmode : ¬ st.name = bytes "set_mode" := by
    rw [hst.name, bytes_inj]
    decide
  have hnudge : ¬ st.name = bytes "set_nudge_enabled" := by
    rw [hst.name, bytes_inj]
    decide
  have hdeadzone : ¬ st.name = bytes "set_deadzone" := by
    rw [hst.name, bytes_inj]
    decide
  rw [parseActionValue, if_neg hmode, if_neg hnudge, if_neg hdeadzone, if_pos hst.name,
    stringOr_readBack hpaired]

theorem actionReads_flash (hst : Before st step "flash") (hvalue : look step "value" = none)
    (h : optional (isTextOf 1 31) (look step "version") = true)
    (hshort : ∀ version, look step "version" = some (.string version) →
      (encode version).length ≤ 31) : ActionReads st step "flash" index := by
  have hlength : ¬ ((((look step "version").bind asText).getD (bytes "9.9.9-sim")).isEmpty ∨
      31 < (((look step "version").bind asText).getD (bytes "9.9.9-sim")).length) := by
    -- a version that is left out has the page's and the simulator's default
    cases hlook : look step "version" with
    | none =>
        have hdefault : ¬ ((bytes "9.9.9-sim").isEmpty ∨ 31 < (bytes "9.9.9-sim").length) := by
          decide
        exact hdefault
    | some v =>
        rw [hlook] at h
        cases v with
        | string s =>
            have hs : (decide (1 ≤ s.length) && decide (s.length ≤ 31)) = true := h
            rw [Bool.and_eq_true, decide_eq_true_eq] at hs
            have hne : encode s ≠ [] := encode_ne_nil (List.ne_nil_of_length_pos hs.1)
            have hle := hshort s hlook
            rintro (hempty | hlong)
            · exact hne (List.isEmpty_iff.mp hempty)
            · exact absurd hle (not_le.mpr hlong)
        | _ => cases h
  refine ⟨{ st with text := ((look step "version").bind asText).getD (bytes "9.9.9-sim") },
    ?_, ?_⟩
  · rw [parseActionValue_flash index hpaired hst]
    exact if_neg hlength
  · rw [hst.values_text, actionText, hvalue]
    have hflash : isText "flash" (.string (units "flash") : Json D JsString) = true := by
      simp [isText]
    dsimp only
    rw [if_pos hflash]
    rfl

/-- **A version that is too long in UTF-8** is refused. -/
theorem parseActionValue_of_long (hst : Before st step "flash") {version : JsString}
    (hversion : look step "version" = some (.string version))
    (hlong : 31 < (encode version).length) :
    ∃ e, parseActionValue st (readBack step) index = .error e := by
  rw [parseActionValue_flash index hpaired hst, hversion]
  exact ⟨_, if_pos (.inr hlong)⟩

omit hpaired in
theorem actionReads_other {a : String} (hst : Before st step a)
    (hother : a ∉ ["set_mode", "set_nudge_enabled", "set_deadzone", "flash"])
    (hvalue : look step "value" = none) : ActionReads st step a index := by
  have hne : ∀ name ∈ ["set_mode", "set_nudge_enabled", "set_deadzone", "flash"],
      ¬ st.name = bytes name := by
    intro name hname heq
    rw [hst.name, bytes_inj] at heq
    exact hother (heq ▸ hname)
  refine ⟨st, ?_, ?_⟩
  · rw [parseActionValue, if_neg (hne _ (by simp)), if_neg (hne _ (by simp)),
      if_neg (hne _ (by simp)), if_neg (hne _ (by simp))]
  · have hflash : ¬ isText "flash" (.string (units a) : Json D JsString) = true := by
      change ¬ decide (units a = units "flash") = true
      rw [decide_eq_true_eq, units_inj]
      rintro rfl
      exact hother (by simp)
    have htext := hst.values_text []
    rw [actionText, hvalue]
    dsimp only
    rw [if_neg hflash]
    refine Eq.trans ?_ htext
    rw [← hst.text]

end Actions

end PageScript

end OmegaStick
