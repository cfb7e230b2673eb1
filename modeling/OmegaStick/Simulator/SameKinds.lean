import OmegaStick.Simulator.SameExpect

/-!
# The body of a step the page accepts, read by the simulator

`Accepted` is what the page has checked of a step.  Under each key but `action` the
simulator reads the body as the page describes it (`BodyReads`).
-/

namespace OmegaStick

open Json (JsString AllPaired)
open Utf16
open SimJson (Value readBack readMember)
open SimScript

namespace PageScript

variable {D : Type} [DoubleText D]

/-! ## The action key -/

omit [DoubleText D] in
theorem unexpected_eq_nil {allowed : List String} {members : List (JsString × Json D JsString)}
    {message : JsString → JsString} :
    unexpected allowed members message = [] ↔ ∀ m ∈ members, ∃ key ∈ allowed, m.1 = units key := by
  rw [unexpected, List.flatMap_eq_nil_iff]
  refine forall₂_congr fun m _ => ?_
  rw [addUnless_eq_nil, List.any_eq_true]
  refine exists_congr fun key => and_congr_right fun _ => ?_
  rw [decide_eq_true_eq]
  exact eq_comm

/-- What the page has checked of a step. -/
structure Accepted (step : Json D JsString) (key : String) (val : Json D JsString)
    (at_ : JsString) : Prop where
  isObj : isObj step = true
  present : present step = [key]
  look_key : look step key = some val
  keys : ∀ m ∈ step.members, ∃ k ∈ allowed key val, m.1 = units k
  kind : validateKind step key val at_ = []

theorem accepted_of_validateStep {i : ℕ} {prev : Option ℚ} {step : Json D JsString}
    (h : (validateStep i prev step).1 = []) :
    ∃ key val at_, Accepted step key val at_ ∧ (validateTime step prev at_).1 = [] ∧
      (validateStep i prev step).2 = (validateTime step prev at_).2 := by
  cases step with
  | object members =>
      obtain ⟨htime, hbody⟩ := List.append_eq_nil_iff.mp h
      split at hbody
      · rename_i key hpresent
        obtain ⟨hkeys, hkind⟩ := List.append_eq_nil_iff.mp hbody
        have hmem : key ∈ present (.object members) := by
          rw [hpresent]
          exact List.mem_singleton_self key
        obtain ⟨val, hval⟩ := Option.isSome_iff_exists.mp (List.mem_filter.mp hmem).2
        rw [hval] at hkeys hkind
        exact ⟨key, val, _, ⟨rfl, hpresent, hval, unexpected_eq_nil.mp hkeys, hkind⟩, htime, rfl⟩
      · cases hbody
      · cases hbody
  | _ => cases h

theorem accepted_time {step : Json D JsString} {prev : Option ℚ} {at_ : JsString}
    (h : (validateTime step prev at_).1 = []) :
    ∃ v q, look step "at_ms" = some v ∧ v.finite = some q ∧ 0 ≤ q ∧ q ≤ 86400000 ∧
      (∀ p ∈ prev, p ≤ q) ∧ (validateTime step prev at_).2 = some q := by
  unfold validateTime at h ⊢
  cases hlook : step.find (units "at_ms") with
  | none =>
      rw [hlook] at h
      cases h
  | some v =>
      rw [hlook] at h
      cases v with
      | number n =>
          dsimp only at h ⊢
          cases hq : DoubleText.value n with
          | none =>
              rw [hq] at h
              cases h
          | some q =>
              rw [hq] at h
              dsimp only at h ⊢
              split_ifs at h ⊢ with hrange
              have hprev := addUnless_eq_nil.mp h
              refine ⟨_, q, hlook, hq, hrange.1, by exact_mod_cast hrange.2, fun p hp => ?_, rfl⟩
              rw [Option.mem_def.mp hp, Option.all_some] at hprev
              exact of_decide_eq_true hprev
      | _ => cases h

/-! ## Steps without an action -/

section Kinds

variable [LawfulDoubleText D] {step val : Json D JsString} {at_ : JsString} (index : ℕ)

/-- The simulator reads the body as the page describes it. -/
def BodyReads (st : Step D) (step : Json D JsString) (key : String) (val : Json D JsString)
    (index : ℕ) : Prop :=
  ∃ st', parseBody st (readBack step) index (bytes key) (readBack val) = .ok st' ∧
    st'.values = describedBody st.values step key val

theorem bodyReads_stick (h : validateKind step "stick" val at_ = []) (st : Step D) :
    BodyReads st step "stick" val index := by
  have hval := addUnless_eq_nil.mp h
  cases val with
  | array items =>
      rw [Bool.and_eq_true, decide_eq_true_eq, List.all_eq_true] at hval
      obtain ⟨hlength, hitems⟩ := hval
      obtain ⟨a, b, rfl⟩ := List.length_eq_two.mp hlength
      obtain ⟨x, hx, hxv⟩ := numberIn_readBack minusOne one
        (hitems a (by simp)) index "stick x"
      obtain ⟨y, hy, hyv⟩ := numberIn_readBack minusOne one
        (hitems b (by simp)) index "stick y"
      refine ⟨{ st with kind := .stick, x := x, y := y }, ?_, ?_⟩
      · rw [SimJson.readBack_array]
        change (numberIn (readBack a) index "stick x" minusOne one >>= _) = _
        rw [hx]
        change (numberIn (readBack b) index "stick y" minusOne one >>= _) = _
        rw [hy]
        rfl
      · change { st.values with
          kind := .stick, x := DoubleText.value x, y := DoubleText.value y } = _
        rw [hxv, hyv]
        rfl
  | _ => cases hval

theorem bodyReads_number {key what : String} (lo hi : Bound) {st : Step D}
    (set : {E : Type} → Step E → E → Step E)
    (hparse : ∀ v, parseBody st (readBack step) index (bytes key) v =
      numberIn v index what lo hi >>= fun n => .ok (set st n))
    (hvalues : ∀ n, (set st n).values = set st.values (DoubleText.value n))
    (hset : describedBody st.values step key val = set st.values val.finite)
    (h : isWithin lo.value hi.value val = true) : BodyReads st step key val index := by
  obtain ⟨n, hn, hv⟩ := numberIn_readBack _ _ h index what
  refine ⟨set st n, ?_, ?_⟩
  · rw [hparse, hn]
    rfl
  · rw [hvalues, hv, hset]

theorem bodyReads_drift (h : validateKind step "drift" val at_ = []) (st : Step D) :
    BodyReads st step "drift" val index :=
  bodyReads_number index zero kMaxDriftRate
    (fun st n => { st with kind := .drift, number := n }) (fun _ => rfl) (fun _ => rfl) rfl
    (addUnless_eq_nil.mp h)

theorem bodyReads_noise (h : validateKind step "noise" val at_ = []) (st : Step D) :
    BodyReads st step "noise" val index :=
  bodyReads_number index zero kMaxNoiseSigma
    (fun st n => { st with kind := .noise, number := n }) (fun _ => rfl) (fun _ => rfl) rfl
    (addUnless_eq_nil.mp h)

omit [LawfulDoubleText D] in
theorem bodyReads_name {key refusal : String} {names : List String} {st : Step D}
    (set : {E : Type} → Step E → List UInt8 → Step E)
    (hparse : ∀ v, parseBody st (readBack step) index (bytes key) v =
      parseName names refusal v index >>= fun name => .ok (set st name))
    (hvalues : ∀ name, (set st name).values = set st.values name)
    (hset : describedBody st.values step key val = set st.values ((asText val).getD []))
    (h : includes names val = true) : BodyReads st step key val index := by
  refine ⟨set st ((asText val).getD []), ?_, ?_⟩
  · rw [hparse, parseName_readBack h]
    rfl
  · rw [hvalues, hset]

omit [LawfulDoubleText D] in
theorem bodyReads_fault (h : validateKind step "fault" val at_ = []) (st : Step D) :
    BodyReads st step "fault" val index :=
  bodyReads_name index (fun st name => { st with kind := .fault, name := name }) (fun _ => rfl)
    (fun _ => rfl) rfl (addUnless_eq_nil.mp h)

omit [LawfulDoubleText D] in
theorem bodyReads_next_image (h : validateKind step "next_image" val at_ = []) (st : Step D) :
    BodyReads st step "next_image" val index :=
  bodyReads_name index (fun st name => { st with kind := .nextImage, name := name })
    (fun _ => rfl) (fun _ => rfl) rfl (addUnless_eq_nil.mp h)

theorem bodyReads_expect (h : validateKind step "expect" val at_ = [])
    (hkeys : val.distinctKeys = true) (st : Step D) : BodyReads st step "expect" val index := by
  obtain ⟨x, hx, hv⟩ := parseExpect_readBack h hkeys index
  refine ⟨{ st with kind := .expect, expect := x }, ?_, ?_⟩
  · change (parseExpect (readBack val) index >>= _) = _
    rw [hx]
    rfl
  · change { st.values with kind := .expect, expect := x.values } = _
    rw [hv]
    rfl

omit [LawfulDoubleText D] in
theorem toInt64_eq {n : D} {v : Json D JsString} (h : DoubleText.value n = v.finite) :
    toInt64 n = wholeMs v := by
  rw [toInt64, wholeMs, h]

theorem bodyReads_pattern (hpaired : AllPaired step)
    (h : validateKind step "pattern" val at_ = []) (st : Step D) (hst : st.duration_ms = -1) :
    BodyReads st step "pattern" val index := by
  obtain ⟨hname, hduration⟩ := List.append_eq_nil_iff.mp h
  have hread := parseName_readBack (addUnless_eq_nil.mp hname) "unknown pattern" index
  have hduration := addUnless_eq_nil.mp hduration
  have hopen : parseBody st (readBack step) index (bytes "pattern") (readBack val) =
      ((readBack step).find (bytes "duration_ms")).elim
        (.ok { st with kind := .pattern, name := (asText val).getD [] })
        fun d => numberIn d index "duration_ms" zero kMaxScriptMs >>= fun n =>
          .ok { st with
            kind := .pattern, name := (asText val).getD [], duration_ms := toInt64 n } := by
    change (parseName simPatterns "unknown pattern" (readBack val) index >>= _) = _
    rw [hread]
    cases (readBack step).find (bytes "duration_ms") <;> rfl
  rw [BodyReads, hopen, find_readBack hpaired]
  change optional (isWithin 0 simMaxAtMs) (look step "duration_ms") = true at hduration
  have hdescribed : describedBody st.values step "pattern" val =
      { st.values with
        kind := .pattern
        name := (asText val).getD []
        duration_ms := (look step "duration_ms").elim (-1) wholeMs } := rfl
  rw [hdescribed]
  -- a duration that is left out is -1 on both sides
  cases hlook : look step "duration_ms" with
  | none => exact ⟨_, rfl, by rw [← hst]; rfl⟩
  | some d =>
      rw [hlook] at hduration
      obtain ⟨n, hn, hv⟩ := numberIn_readBack zero kMaxScriptMs hduration index
        "duration_ms"
      refine ⟨{ st with
        kind := .pattern, name := (asText val).getD [], duration_ms := toInt64 n }, ?_, ?_⟩
      · rw [Option.map_some]
        rw [Option.elim_some]
        rw [hn]
        rfl
      · rw [Option.elim_some, ← toInt64_eq hv]
        rfl

end Kinds

end PageScript

end OmegaStick
