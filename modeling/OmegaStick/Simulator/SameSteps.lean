import OmegaStick.Simulator.SameActions

/-!
# The steps the page accepts, read by the simulator

A step the page accepts becomes the step it describes (`parseStep_readBack`), unless it is
a flash step whose version is longer than 31 bytes in UTF-8 (`parseStep_of_long`): the page
counts UTF-16 units.  The loop over the steps keeps their order in time when the times are
cut to whole milliseconds (`parseSteps_readBack`).
-/

namespace OmegaStick

open Json (JsString AllPaired)
open Utf16
open SimJson (Value readBack readMember)
open SimScript

namespace PageScript

variable {D : Type} [DoubleText D]

/-! ## Actions -/

section Actions

variable {step val : Json D JsString} {at_ : JsString} (hpaired : AllPaired step)

include hpaired

/-- The name and the reply expected of an action are read, and its value is next. -/
theorem parseBody_action {a : String} (ha : a ∈ simActions)
    (hreply : optional (includes simReplies) (look step "expect_reply") = true) (time : ℤ)
    (index : ℕ) :
    ∃ st : Step D, parseBody (.start time) (readBack step) index (bytes "action")
        (readBack (.string (units a))) = parseActionValue st (readBack step) index ∧
      Before st step a ∧
      st.values = { (Step.start time : Step D).values with
        kind := .action
        name := bytes a
        expect_reply := (look step "expect_reply").bind asText } := by
  have hknown : includes simActions (.string (units a) : Json D JsString) = true :=
    List.any_eq_true.mpr ⟨a, ha, decide_eq_true rfl⟩
  have hname := parseName_readBack hknown "unknown action" index
  have hopen : parseBody (.start time) (readBack step) index (bytes "action")
      (readBack (.string (units a))) =
      ((readBack step).find (bytes "expect_reply")).elim
        (parseActionValue
          { (Step.start time : Step D) with kind := .action, name := encode (units a) }
          (readBack step) index)
        fun r => parseName kReplies
          "expect_reply must be ok, busy, invalid, unsupported or error" r index >>= fun reply =>
          parseActionValue { (Step.start time : Step D) with
            kind := .action, name := encode (units a), expect_reply := some reply }
            (readBack step) index := by
    change (parseName simActions "unknown action" _ index >>= _) = _
    rw [hname]
    cases (readBack step).find (bytes "expect_reply") <;> rfl
  rw [hopen, find_readBack hpaired, encode_units]
  cases hlook : look step "expect_reply" with
  | none => exact ⟨_, rfl, ⟨rfl, rfl, rfl, rfl, by rw [hlook]; rfl⟩, rfl⟩
  | some r =>
      rw [hlook] at hreply
      -- the reply is read by the same rule as the name
      have hread := parseName_readBack hreply
        "expect_reply must be ok, busy, invalid, unsupported or error" index
      obtain ⟨reply, -, rfl⟩ := exists_text hreply
      refine ⟨{ (Step.start time : Step D) with
        kind := .action, name := bytes a, expect_reply := some (encode (units reply)) },
        ?_, ⟨rfl, rfl, rfl, rfl, by rw [hlook]; rfl⟩, rfl⟩
      change (parseName simReplies _ _ _ >>= _) = _
      rw [hread]
      rfl

omit hpaired in
theorem parts_of_validateSimAction (h : validateSimAction step val at_ = []) :
    ∃ a ∈ simActions, val = .string (units a) ∧
      optional (includes simReplies) (look step "expect_reply") = true ∧
      (validateValue step (units a) at_).1 = [] ∧
      ((validateValue step (units a) at_).2 = true →
        validateVersion step (units a) at_ = []) := by
  unfold validateSimAction at h
  cases val with
  | string s =>
      dsimp only at h
      by_cases hknown : includes simActions (.string s : Json D JsString) = true
      swap
      · rw [if_neg hknown] at h
        cases h
      rw [if_pos hknown] at h
      obtain ⟨a, ha, hs⟩ := exists_text hknown
      obtain rfl := Json.string.inj hs
      obtain ⟨h, hversion⟩ := List.append_eq_nil_iff.mp h
      obtain ⟨hreply, hvalue⟩ := List.append_eq_nil_iff.mp h
      refine ⟨a, ha, rfl, addUnless_eq_nil.mp hreply, hvalue, fun hnext => ?_⟩
      rwa [if_pos hnext] at hversion
  | _ => cases h

omit hpaired in
theorem units_ne {a b : String} (h : a ≠ b) : ¬ units a = units b := fun heq => h (units_inj.mp heq)

theorem bodyReads_action [LawfulDoubleText D] (hlook : look step "action" = some val)
    (h : validateKind step "action" val at_ = []) (hshort : ShortVersion step) (time : ℤ)
    (index : ℕ) : BodyReads (.start time) step "action" val index := by
  obtain ⟨a, ha, rfl, hreply, hvalue, hversion⟩ := parts_of_validateSimAction h
  obtain ⟨st, hparse, hst, hvalues⟩ := parseBody_action hpaired ha hreply time index
  have hreads : ActionReads st step a index := by
    unfold validateValue at hvalue hversion
    -- the actions that take something, one after the other, as both sides look at them
    by_cases hmode : a = "set_mode"
    · subst hmode
      exact actionReads_set_mode index hpaired hst (addUnless_eq_nil.mp hvalue)
    rw [if_neg (units_ne hmode)] at hvalue hversion
    by_cases hnudge : a = "set_nudge_enabled"
    · subst hnudge
      exact actionReads_set_nudge_enabled index hpaired hst (addUnless_eq_nil.mp hvalue)
    rw [if_neg (units_ne hnudge)] at hvalue hversion
    by_cases hdeadzone : a = "set_deadzone"
    · subst hdeadzone
      have hzone : (validateValue step (units "set_deadzone") at_).1 = [] := by
        rw [validateValue, if_neg (units_ne hmode), if_neg (units_ne hnudge)]
        exact hvalue
      exact actionReads_set_deadzone index hpaired hst hzone
    rw [if_neg (units_ne hdeadzone)] at hvalue hversion
    have hnone : look step "value" = none :=
      Option.isNone_iff_eq_none.mp (addUnless_eq_nil.mp hvalue)
    by_cases hflash : a = "flash"
    · subst hflash
      have hversion := hversion rfl
      rw [validateVersion, if_pos rfl] at hversion
      have hflash : (look step "action").any (isText "flash") = true := by
        rw [hlook]
        simp [isText]
      exact actionReads_flash index hpaired hst hnone (addUnless_eq_nil.mp hversion)
        (hshort hflash)
    · refine actionReads_other index hst ?_ hnone
      simp only [List.mem_cons, List.not_mem_nil, or_false, not_or]
      exact ⟨hmode, hnudge, hdeadzone, hflash⟩
  obtain ⟨st', hst', hread⟩ := hreads
  refine ⟨st', hparse.trans hst', ?_⟩
  rw [hread, hvalues, ← encode_units a]
  rfl

/-- **The page's length is not the simulator's**: a flash version that is longer in UTF-8
ends the reading. -/
theorem parseBody_of_long (hlook : look step "action" = some val)
    (h : validateKind step "action" val at_ = []) (hlong : ¬ ShortVersion step) (time : ℤ)
    (index : ℕ) :
    ∃ e, parseBody (.start time : Step D) (readBack step) index (bytes "action") (readBack val) =
      .error e := by
  obtain ⟨a, ha, rfl, hreply, -, -⟩ := parts_of_validateSimAction h
  obtain ⟨st, hparse, hst, -⟩ := parseBody_action hpaired ha hreply time index
  unfold ShortVersion at hlong
  push Not at hlong
  obtain ⟨hflash, version, hversion, hlength⟩ := hlong
  rw [hlook] at hflash
  obtain rfl : a = "flash" := units_inj.mp (of_decide_eq_true hflash)
  obtain ⟨e, he⟩ := parseActionValue_of_long index hpaired hst hversion hlength
  exact ⟨e, hparse.trans he⟩

end Actions

/-! ## Steps -/

section Steps

variable {step val : Json D JsString} {key : String} {at_ : JsString}

omit [DoubleText D] in
theorem distinctKeys_look {v found : Json D JsString} (h : v.distinctKeys = true) {key : String}
    (hfound : look v key = some found) : found.distinctKeys = true := by
  have hmem := Json.mem_of_find hfound
  cases v with
  | object members => exact (Json.distinctKeys_object.mp h).2 _ hmem
  | _ => cases hmem

theorem mem_simStepKeys (h : Accepted step key val at_) : key ∈ simStepKeys := by
  have hmem : key ∈ present step := by
    rw [h.present]
    exact List.mem_singleton_self key
  exact (List.mem_filter.mp hmem).1

omit [DoubleText D] in
theorem mem_allowed {k : String} (h : k ∈ allowed key val) : k = key ∨ k ∈ sideKeys := by
  unfold allowed at h
  rcases List.mem_append.mp h with h | h
  · rcases List.mem_append.mp h with h | h
    · rcases List.mem_pair.mp h with rfl | rfl
      · exact .inr (by decide)
      · exact .inl rfl
    · split_ifs at h
      · rw [List.mem_singleton.mp h]
        exact .inr (by decide)
      · cases h
  · split_ifs at h
    · rcases List.mem_append.mp h with h | h
      · rcases List.mem_pair.mp h with rfl | rfl <;> exact .inr (by decide)
      · rw [List.mem_singleton.mp h]
        exact .inr (by decide)
    · rcases List.mem_append.mp h with h | h
      · rcases List.mem_pair.mp h with rfl | rfl <;> exact .inr (by decide)
      · cases h
    · cases h

theorem findBody_side {m : JsString × Json D JsString} (h : ∃ k ∈ sideKeys, m.1 = units k)
    (index : ℕ) (body : Option (List UInt8 × Value D)) :
    findBody index body (readMember m) = .ok body := by
  obtain ⟨k, hk, hm⟩ := h
  have hside : contains sideKeys (readMember m).1 = true := by
    rw [readMember, hm, encode_units]
    exact contains_bytes.mpr hk
  exact if_pos hside

theorem findBody_key (hkey : key ∈ simStepKeys) (v : Json D JsString) (index : ℕ) :
    findBody index none (readMember (units key, v)) = .ok (some (bytes key, readBack v)) := by
  have hdisjoint : ∀ k ∈ simStepKeys, k ∉ sideKeys := by decide
  have hside : ¬ contains sideKeys (bytes key) = true := fun hside =>
    hdisjoint key hkey (contains_bytes.mp hside)
  have hknown : ¬ ¬ contains kKinds (bytes key) = true := not_not.mpr (contains_bytes.mpr hkey)
  have hmember : readMember (units key, v) = (bytes key, readBack v) := by
    rw [readMember, encode_units]
  rw [hmember, findBody, if_neg hside, if_neg hknown]
  rfl

theorem foldlM_side {members : List (JsString × Json D JsString)}
    (h : ∀ m ∈ members, ∃ k ∈ sideKeys, m.1 = units k) (index : ℕ)
    (body : Option (List UInt8 × Value D)) :
    (members.map readMember).foldlM (findBody index) body = .ok body := by
  induction members with
  | nil => rfl
  | cons m rest ih =>
      obtain ⟨hm, hrest⟩ := List.forall_mem_cons.mp h
      rw [List.map_cons, List.foldlM_cons, findBody_side hm]
      exact ih hrest

/-- The search finds the member under the action key, wherever it stands. -/
theorem foldlM_findBody {members : List (JsString × Json D JsString)} (hkey : key ∈ simStepKeys)
    (h : ∀ m ∈ members, ∃ k, (k = key ∨ k ∈ sideKeys) ∧ m.1 = units k)
    (hkeys : (members.map Prod.fst).Nodup) (hval : (units key, val) ∈ members) (index : ℕ) :
    (members.map readMember).foldlM (findBody index) none =
      .ok (some (bytes key, readBack val)) := by
  induction members with
  | nil => cases hval
  | cons m rest ih =>
      obtain ⟨⟨k, hk, hm⟩, hrest⟩ := List.forall_mem_cons.mp h
      rw [List.map_cons, List.nodup_cons] at hkeys
      rw [List.map_cons, List.foldlM_cons]
      -- the keys are distinct, so that the action key stands in one place
      rcases List.mem_cons.mp hval with rfl | hlater
      · have hside : ∀ m ∈ rest, ∃ k ∈ sideKeys, m.1 = units k := by
          intro m' hm'
          obtain ⟨k', hk' | hk', hkey'⟩ := hrest m' hm'
          · refine absurd (List.mem_map_of_mem (f := Prod.fst) hm') ?_
            rw [hkey', hk']
            exact hkeys.1
          · exact ⟨k', hk', hkey'⟩
        rw [findBody_key hkey]
        exact foldlM_side hside index _
      · have hne : k ≠ key := by
          rintro rfl
          refine hkeys.1 ?_
          rw [hm]
          exact List.mem_map_of_mem (f := Prod.fst) hlater
        rw [findBody_side ⟨k, hk.resolve_left hne, hm⟩]
        exact ih hrest hkeys.2 hlater

variable [LawfulDoubleText D]

/-- The body of an accepted step is read as described, a long flash version apart. -/
theorem bodyReads (h : Accepted step key val at_) (hpaired : AllPaired step)
    (hkeys : step.distinctKeys = true) (hshort : ShortVersion step) (time : ℤ) (index : ℕ) :
    BodyReads (.start time) step key val index := by
  have hkind := h.kind
  have hlook := h.look_key
  have hmem := mem_simStepKeys h
  simp only [simStepKeys, List.mem_cons, List.not_mem_nil, or_false] at hmem
  rcases hmem with rfl | rfl | rfl | rfl | rfl | rfl | rfl | rfl
  · exact bodyReads_stick index hkind _
  · exact bodyReads_pattern index hpaired hkind _ rfl
  · exact bodyReads_fault index hkind _
  · exact bodyReads_drift index hkind _
  · exact bodyReads_noise index hkind _
  · exact bodyReads_next_image index hkind _
  · exact bodyReads_action hpaired hlook hkind hshort time index
  · exact bodyReads_expect index hkind (distinctKeys_look hkeys hlook) _

/-- The simulator gets to the body of an accepted step, with its time. -/
theorem parseStep_eq (h : Accepted step key val at_) (hpaired : AllPaired step)
    (hkeys : step.distinctKeys = true) {v : Json D JsString}
    (hlook : look step "at_ms" = some v) (hv : isWithin 0 86400000 v = true) (index : ℕ) :
    parseStep (readBack step) index =
      parseBody (.start (wholeMs v)) (readBack step) index (bytes key) (readBack val) := by
  have hisObj := h.isObj
  cases step with
  | object members =>
      obtain ⟨n, hn, hvalue⟩ := numberIn_readBack zero kMaxScriptMs hv index "at_ms"
      have hat := find_readBack hpaired "at_ms"
      have hfound := foldlM_findBody (mem_simStepKeys h) (fun m hm => by
          obtain ⟨k, hk, hmk⟩ := h.keys m hm
          exact ⟨k, mem_allowed hk, hmk⟩)
        (Json.distinctKeys_object.mp hkeys).1 (Json.mem_of_find h.look_key) index
      rw [hlook] at hat
      rw [SimJson.readBack_object] at hat ⊢
      rw [parseStep, hat]
      change (numberIn (readBack v) index "at_ms" zero kMaxScriptMs >>= _) = _
      rw [hn]
      change (List.foldlM (findBody index) none (members.map readMember) >>= _) = _
      rw [hfound]
      change parseBody (.start (toInt64 n)) _ _ _ _ = _
      rw [toInt64_eq hvalue]
  | _ => cases hisObj

theorem described_eq (h : Accepted step key val at_) {v : Json D JsString}
    (hlook : look step "at_ms" = some v) :
    described step = describedBody (Step.start (wholeMs v) : Step D).values step key val := by
  have hstart : (Step.start (wholeMs v) : Step D).values =
      { at_ms := wholeMs v, x := some 0, y := some 0, number := some 0 } := by
    simp [Step.values, Step.start, Expect.values, LawfulDoubleText.value_zero]
  rw [hstart, described, h.present, hlook]
  dsimp only
  rw [h.look_key]
  rfl

/-- **A step the page accepts becomes the step it describes.** -/
theorem parseStep_readBack (h : Accepted step key val at_) (hpaired : AllPaired step)
    (hkeys : step.distinctKeys = true) (hshort : ShortVersion step) {v : Json D JsString}
    (hlook : look step "at_ms" = some v) (hv : isWithin 0 86400000 v = true) (index : ℕ) :
    ∃ st, parseStep (readBack step) index = .ok st ∧ st.values = described step := by
  obtain ⟨st, hst, hread⟩ := bodyReads h hpaired hkeys hshort (wholeMs v) index
  refine ⟨st, ?_, ?_⟩
  · rw [parseStep_eq h hpaired hkeys hlook hv, hst]
  · rw [hread, described_eq h hlook]

theorem parseStep_of_long (h : Accepted step key val at_) (hpaired : AllPaired step)
    (hkeys : step.distinctKeys = true) (hlong : ¬ ShortVersion step) {v : Json D JsString}
    (hlook : look step "at_ms" = some v) (hv : isWithin 0 86400000 v = true) (index : ℕ) :
    ∃ e, parseStep (readBack step) index = .error e := by
  -- only a flash step has a version that counts
  have haction : key = "action" := by
    by_contra hne
    refine hlong fun hflash => ?_
    have hsome : (look step "action").isSome = true := by
      cases hlook : look step "action" with
      | none =>
          rw [hlook] at hflash
          cases hflash
      | some w => rfl
    have hmem : "action" ∈ present step := List.mem_filter.mpr ⟨by decide, hsome⟩
    rw [h.present] at hmem
    exact absurd (List.mem_singleton.mp hmem).symm hne
  subst haction
  rw [parseStep_eq h hpaired hkeys hlook hv]
  exact parseBody_of_long hpaired h.look_key h.kind hlong (wholeMs v) index

end Steps

/-! ## The loop over the steps -/

section Loop

theorem describedBody_at_ms (base : Step (Option ℚ)) (step : Json D JsString) (key : String)
    (val : Json D JsString) : (describedBody base step key val).at_ms = base.at_ms := by
  unfold describedBody
  split_ifs
  · split <;> rfl
  all_goals rfl

/-- What the page's loop leaves of an accepted step. -/
theorem step_of_validateSteps {i : ℕ} {prev : Option ℚ} {step : Json D JsString}
    (h : (validateStep i prev step).1 = []) :
    ∃ key val at_ v q, Accepted step key val at_ ∧ look step "at_ms" = some v ∧
      isWithin 0 86400000 v = true ∧ v.finite = some q ∧ (∀ p ∈ prev, p ≤ q) ∧
      (validateStep i prev step).2 = some q := by
  obtain ⟨key, val, at_, hacc, htime, hnext⟩ := accepted_of_validateStep h
  obtain ⟨v, q, hlook, hq, hlow, hhigh, hprev, htime⟩ := accepted_time htime
  refine ⟨key, val, at_, v, q, hacc, hlook, ?_, hq, hprev, hnext.trans htime⟩
  rw [isWithin, hq, Option.any_some, Bool.and_eq_true, decide_eq_true_eq, decide_eq_true_eq]
  exact ⟨hlow, hhigh⟩

variable [LawfulDoubleText D]

/-- **Every accepted step is read in turn**; the times stay in order when they are cut to
whole milliseconds. -/
theorem parseSteps_readBack {steps : List (Json D JsString)} {i : ℕ} {prev : Option ℚ}
    (h : validateSteps i prev steps = []) (hpaired : ∀ step ∈ steps, AllPaired step)
    (hkeys : ∀ step ∈ steps, step.distinctKeys = true)
    (hshort : ∀ step ∈ steps, ShortVersion step) (index : ℕ) {last : ℤ}
    (hlast : last = 0 ∧ prev = none ∨ ∃ p, prev = some p ∧ last = p.floor) :
    ∃ read, parseSteps index last (steps.map readBack) = .ok read ∧
      read.map Step.values = steps.map described := by
  induction steps generalizing i prev index last with
  | nil => exact ⟨[], rfl, rfl⟩
  | cons step rest ih =>
      obtain ⟨hstep, hrest⟩ := List.append_eq_nil_iff.mp h
      obtain ⟨hp, hpRest⟩ := List.forall_mem_cons.mp hpaired
      obtain ⟨hk, hkRest⟩ := List.forall_mem_cons.mp hkeys
      obtain ⟨hs, hsRest⟩ := List.forall_mem_cons.mp hshort
      obtain ⟨key, val, at_, v, q, hacc, hlook, hv, hq, hprev, hnext⟩ := step_of_validateSteps hstep
      obtain ⟨st, hst, hvalues⟩ := parseStep_readBack hacc hp hk hs hlook hv index
      have htime : st.at_ms = q.floor := by
        have hat : st.values.at_ms = wholeMs v := by
          rw [hvalues, described_eq hacc hlook, describedBody_at_ms]
          rfl
        exact hat.trans (by rw [wholeMs, hq]; rfl)
      -- cutting to whole milliseconds keeps the order
      have hsorted : ¬ st.at_ms < last := by
        rw [htime, not_lt]
        rcases hlast with ⟨rfl, -⟩ | ⟨p, hp', rfl⟩
        · obtain ⟨q', hq', hlow, -⟩ := exists_finite hv
          obtain rfl := Option.some.inj (hq.symm.trans hq')
          exact Int.floor_nonneg.mpr hlow
        · exact Int.floor_le_floor (hprev p hp')
      -- the last time of the rest is the one of this step
      rw [hnext] at hrest
      have hlater : st.at_ms = 0 ∧ some q = none ∨ ∃ p, some q = some p ∧ st.at_ms = p.floor :=
        .inr ⟨q, rfl, htime⟩
      obtain ⟨read, hread, hsame⟩ := ih hrest hpRest hkRest hsRest (index + 1) hlater
      refine ⟨st :: read, ?_, ?_⟩
      · rw [List.map_cons, parseSteps, hst]
        change (if _ then _ else _) = _
        rw [if_neg hsorted, hread]
        rfl
      · rw [List.map_cons, List.map_cons, hvalues, hsame]

theorem parseSteps_of_long {steps : List (Json D JsString)} {i : ℕ} {prev : Option ℚ}
    (h : validateSteps i prev steps = []) (hpaired : ∀ step ∈ steps, AllPaired step)
    (hkeys : ∀ step ∈ steps, step.distinctKeys = true)
    (hlong : ∃ step ∈ steps, ¬ ShortVersion step) (index : ℕ) (last : ℤ) :
    ∃ e, parseSteps index last (steps.map readBack) = .error e := by
  induction steps generalizing i prev index last with
  | nil =>
      obtain ⟨step, hmem, -⟩ := hlong
      cases hmem
  | cons step rest ih =>
      obtain ⟨hstep, hrest⟩ := List.append_eq_nil_iff.mp h
      obtain ⟨hp, hpRest⟩ := List.forall_mem_cons.mp hpaired
      obtain ⟨hk, hkRest⟩ := List.forall_mem_cons.mp hkeys
      obtain ⟨key, val, at_, v, q, hacc, hlook, hv, -, -, -⟩ := step_of_validateSteps hstep
      rw [List.map_cons, parseSteps]
      by_cases hs : ShortVersion step
      · obtain ⟨st, hst, -⟩ := parseStep_readBack hacc hp hk hs hlook hv index
        have hlater : ∃ step ∈ rest, ¬ ShortVersion step := by
          rcases (List.exists_mem_cons_iff _ _ _).mp hlong with hnow | hlater
          · exact absurd hs hnow
          · exact hlater
        obtain ⟨e, he⟩ := ih hrest hpRest hkRest hlater (index + 1) st.at_ms
        rw [hst]
        by_cases hsorted : st.at_ms < last
        · exact ⟨_, if_pos hsorted⟩
        · refine ⟨e, (if_neg hsorted).trans ?_⟩
          rw [he]
          rfl
      · obtain ⟨e, he⟩ := parseStep_of_long hacc hp hk hs hlook hv index
        rw [he]
        exact ⟨e, rfl⟩

end Loop

end PageScript

end OmegaStick
