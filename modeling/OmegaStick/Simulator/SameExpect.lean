import Mathlib.Data.List.Find
import OmegaStick.Simulator.Meaning

/-!
# An expectation the page accepts, read by the simulator

Each check of the page has its counterpart in the simulator, on the value read back.  The
simulator's loop over an expectation takes every member the page accepts as the assertion
it is (`takes_of_accepts`), so that the whole is what the page's expectation says
(`parseExpect_readBack`).
-/

namespace OmegaStick

open Json (JsString AllPaired)
open Utf16
open SimJson (Value readBack readMember)
open SimScript

namespace PageScript

/-! ## Members and names -/

section Members

variable {D : Type}

theorem look_object (members : List (JsString × Json D JsString)) (key : String) :
    look (.object members) key = (members.find? fun m => m.1 = units key).map Prod.snd := rfl

theorem allPaired_look {v found : Json D JsString} (h : AllPaired v) {key : String}
    (hfound : look v key = some found) : AllPaired found := by
  have hmem := Json.mem_of_find hfound
  cases v with
  | object members => exact (Json.allPaired_object.mp h _ hmem).2
  | _ => cases hmem

theorem exists_text {names : List String} {v : Json D JsString} (h : includes names v = true) :
    ∃ name ∈ names, v = .string (units name) := by
  cases v with
  | string s =>
      obtain ⟨name, hname, hs⟩ := List.any_eq_true.mp h
      exact ⟨name, hname, congrArg Json.string (of_decide_eq_true hs).symm⟩
  | _ => cases h

theorem contains_bytes {names : List String} {name : String} :
    contains names (bytes name) = true ↔ name ∈ names := by
  simp [contains, bytes_inj]

end Members

/-! ## Values -/

section Values

variable {D : Type} [DoubleText D]

theorem find_readBack {v : Json D JsString} (h : AllPaired v) (key : String) :
    (readBack v).find (bytes key) = (look v key).map readBack := by
  cases v with
  | object members =>
      have hkeys := Json.allPaired_object.mp h
      have hsame : members.find? ((fun m : List UInt8 × Value D => decide (m.1 = bytes key)) ∘
          readMember) = members.find? fun m => decide (m.1 = units key) :=
        List.find?_congr fun m hm => decide_eq_decide.mpr (encode_eq_bytes (hkeys m hm).1 key)
      rw [SimJson.readBack_object, Json.find_object, look_object, List.find?_map, Option.map_map,
        Option.map_map, hsame]
      rfl
  | number n =>
      rw [SimJson.readBack_number]
      split_ifs <;> rfl
  | array items =>
      rw [SimJson.readBack_array]
      rfl
  | null => rfl
  | bool b => rfl
  | string s => rfl

theorem stringOr_readBack {v : Json D JsString} (h : AllPaired v) (key fallback : String) :
    SimJson.stringOr (readBack v) (bytes key) (bytes fallback) =
      ((look v key).bind asText).getD (bytes fallback) := by
  rw [SimJson.stringOr, find_readBack h]
  cases look v key with
  | none => rfl
  | some w =>
      cases w with
      | number n =>
          rw [Option.map_some, SimJson.readBack_number]
          split_ifs <;> rfl
      | array items =>
          rw [Option.map_some, SimJson.readBack_array]
          rfl
      | object members =>
          rw [Option.map_some, SimJson.readBack_object]
          rfl
      | _ => rfl

theorem exists_finite {v : Json D JsString} {lo hi : ℚ} (h : isWithin lo hi v = true) :
    ∃ q, v.finite = some q ∧ lo ≤ q ∧ q ≤ hi := by
  unfold isWithin at h
  cases hv : v.finite with
  | none =>
      rw [hv] at h
      cases h
  | some q =>
      rw [hv, Option.any_some, Bool.and_eq_true, decide_eq_true_eq, decide_eq_true_eq] at h
      exact ⟨q, rfl, h⟩

variable [LawfulDoubleText D]

theorem exists_number {v : Json D JsString} {q : ℚ} (h : v.finite = some q) :
    ∃ n, readBack v = .number n ∧ DoubleText.value n = some q := by
  cases v with
  | number n =>
      have hq : DoubleText.value n = some q := h
      refine ⟨_, ?_, LawfulDoubleText.value_strtod hq⟩
      rw [SimJson.readBack_number, if_pos (by rw [hq]; rfl)]
  | _ => cases h

theorem numberIn_readBack {v : Json D JsString} (lo hi : Bound)
    (h : isWithin lo.value hi.value v = true) (index : ℕ) (what : String) :
    ∃ n, numberIn (readBack v) index what lo hi = .ok n ∧ DoubleText.value n = v.finite := by
  obtain ⟨q, hq, hlo, hhi⟩ := exists_finite h
  obtain ⟨n, hread, hn⟩ := exists_number hq
  have hrange : ¬ (q < lo.value ∨ hi.value < q) := not_or.mpr ⟨not_lt.mpr hlo, not_lt.mpr hhi⟩
  refine ⟨n, ?_, hn.trans hq.symm⟩
  rw [hread, numberIn, hn]
  exact if_neg hrange

end Values

/-! ## Expectations -/

section Expectations

variable {D : Type} [DoubleText D]

theorem parseName_readBack {names : List String} {v : Json D JsString}
    (h : includes names v = true) (refusal : String) (index : ℕ) :
    parseName names refusal (readBack v) index = .ok ((asText v).getD []) := by
  obtain ⟨name, hname, rfl⟩ := exists_text h
  have hcontains : contains names (encode (units name)) = true := by
    rw [encode_units]
    exact contains_bytes.mpr hname
  exact if_pos hcontains

theorem wantChoice_readBack {choices : List String} {v : Json D JsString}
    (h : includes choices v = true) (index : ℕ) (key : String) :
    ∃ s, wantChoice index key choices (readBack v) = .ok s ∧ asText v = some s := by
  obtain ⟨name, hname, rfl⟩ := exists_text h
  have hcontains : contains choices (encode (units name)) = true := by
    rw [encode_units]
    exact contains_bytes.mpr hname
  exact ⟨_, if_pos hcontains, rfl⟩

theorem wantBool_readBack {v : Json D JsString} (h : isBool v = true) (index : ℕ)
    (key : String) : ∃ b, wantBool index key (readBack v) = .ok b ∧ asBool v = some b := by
  cases v with
  | bool b => exact ⟨b, rfl, rfl⟩
  | _ => cases h

theorem addUnless_eq_nil {holds : Bool} {message : JsString} :
    addUnless holds message = [] ↔ holds = true := by
  cases holds <;> simp [addUnless]

/-- What the page asks of a version. -/
def isNonemptyText (v : Json D JsString) : Bool :=
  match v with
  | .string s => !s.isEmpty
  | _ => false

/-- One more member. -/
def withMember (member : Assertion → Option (Json D JsString)) (key : Assertion)
    (v : Json D JsString) (a : Assertion) : Option (Json D JsString) :=
  if a = key then some v else member a

/-- The simulator's loop takes the member `key` as the page has it. -/
def Takes (index : ℕ) (x : Expect D) (member : Assertion → Option (Json D JsString))
    (key : Assertion) (v : Json D JsString) : Prop :=
  ∃ x', parseExpectMember index x (bytes key.key, readBack v) = .ok x' ∧
    x'.values = describedExpect (withMember member key v)

section Takes

variable {index : ℕ} {x : Expect D} {member : Assertion → Option (Json D JsString)}
  {key : Assertion} {v : Json D JsString} (hx : x.values = describedExpect member)

include hx

theorem takes_bool (set : {E : Type} → Expect E → Option Bool → Expect E)
    (hparse : ∀ v, parseExpectMember index x (bytes key.key, v) =
      wantBool index key.key v >>= fun b => .ok (set x (some b)))
    (hvalues : ∀ b, (set x b).values = set x.values b)
    (hset : set (describedExpect member) (asBool v) = describedExpect (withMember member key v))
    (h : isBool v = true) : Takes index x member key v := by
  obtain ⟨b, hb, hv⟩ := wantBool_readBack h index key.key
  refine ⟨set x (some b), ?_, ?_⟩
  · rw [hparse, hb]
    rfl
  · rw [hvalues, hx, ← hv, hset]

theorem takes_choice (set : {E : Type} → Expect E → Option (List UInt8) → Expect E)
    {choices : List String}
    (hparse : ∀ v, parseExpectMember index x (bytes key.key, v) =
      wantChoice index key.key choices v >>= fun s => .ok (set x (some s)))
    (hvalues : ∀ s, (set x s).values = set x.values s)
    (hset : set (describedExpect member) (asText v) = describedExpect (withMember member key v))
    (h : includes choices v = true) : Takes index x member key v := by
  obtain ⟨s, hs, hv⟩ := wantChoice_readBack h index key.key
  refine ⟨set x (some s), ?_, ?_⟩
  · rw [hparse, hs]
    rfl
  · rw [hvalues, hx, ← hv, hset]

theorem takes_number [LawfulDoubleText D] (set : {E : Type} → Expect E → Option E → Expect E)
    {what : String} {lo hi : Bound}
    (hparse : ∀ v, parseExpectMember index x (bytes key.key, v) =
      numberIn v index what lo hi >>= fun n => .ok (set x (some n)))
    (hvalues : ∀ n, (set x (some n)).values = set x.values (some (DoubleText.value n)))
    (hset : set (describedExpect member) (some v.finite) =
      describedExpect (withMember member key v))
    (h : isWithin lo.value hi.value v = true) : Takes index x member key v := by
  obtain ⟨n, hn, hv⟩ := numberIn_readBack _ _ h index what
  refine ⟨set x (some n), ?_, ?_⟩
  · rw [hparse, hn]
    rfl
  · rw [hvalues, hx, hv, hset]

theorem takes_fw_version (h : isNonemptyText v = true) : Takes index x member .fw_version v := by
  cases v with
  | string s =>
      refine ⟨{ x with fw_version := some (encode s) }, rfl, ?_⟩
      change { x.values with fw_version := some (encode s) } = _
      rw [hx]
      rfl
  | _ => cases h

end Takes

/-! ### Every value of an expectation is flat -/

omit [DoubleText D] in
theorem fits_of_isBool {v : Json D JsString} (h : isBool v = true) : v.Fits 1 := by
  cases v with
  | bool b => trivial
  | _ => cases h

omit [DoubleText D] in
theorem fits_of_includes {names : List String} {v : Json D JsString}
    (h : includes names v = true) : v.Fits 1 := by
  obtain ⟨name, -, rfl⟩ := exists_text h
  trivial

theorem fits_of_isWithin {lo hi : ℚ} {v : Json D JsString} (h : isWithin lo hi v = true) :
    v.Fits 1 := by
  cases v with
  | number n => trivial
  | _ => cases h

omit [DoubleText D] in
theorem fits_of_isNonemptyText {v : Json D JsString} (h : isNonemptyText v = true) :
    v.Fits 1 := by
  cases v with
  | string s => trivial
  | _ => cases h

/-! ### A member the page accepts -/

/-- What the page accepts as the value of an assertion. -/
def Assertion.accepts (v : Json D JsString) : Assertion → Bool
  | calibrated | sensor_fault | sensor_observed | fw_pending | neutral | needs_calibration =>
      isBool v
  | center_max => isWithin 0 10 v
  | fw_version => isNonemptyText v
  | xac_x | xac_y => isWithin (-1) 1 v
  | mouse_moved => includes ["right", "left", "up", "down", "none"] v
  | clicked => includes ["left", "right", "none"] v
  | mode => includes ["mouse", "xac"] v
  | fw_slot => includes ["ota_0", "ota_1"] v

/-- A member that the page accepts is one of the assertions. -/
theorem exists_assertion {at_ : JsString} {m : JsString × Json D JsString}
    (hm : expectMember at_ m = []) :
    ∃ key : Assertion, m.1 = units key.key ∧ key.accepts m.2 = true := by
  unfold expectMember at hm
  -- the branches of the page, one after the other
  obtain ⟨h, hm⟩ | ⟨-, hm⟩ := ite_eq_iff.mp hm
  · exact ⟨.calibrated, h, addUnless_eq_nil.mp hm⟩
  obtain ⟨h, hm⟩ | ⟨-, hm⟩ := ite_eq_iff.mp hm
  · exact ⟨.sensor_fault, h, addUnless_eq_nil.mp hm⟩
  obtain ⟨h, hm⟩ | ⟨-, hm⟩ := ite_eq_iff.mp hm
  · exact ⟨.sensor_observed, h, addUnless_eq_nil.mp hm⟩
  obtain ⟨h, hm⟩ | ⟨-, hm⟩ := ite_eq_iff.mp hm
  · exact ⟨.fw_pending, h, addUnless_eq_nil.mp hm⟩
  obtain ⟨h, hm⟩ | ⟨-, hm⟩ := ite_eq_iff.mp hm
  · exact ⟨.neutral, h, addUnless_eq_nil.mp hm⟩
  obtain ⟨h, hm⟩ | ⟨-, hm⟩ := ite_eq_iff.mp hm
  · exact ⟨.needs_calibration, h, addUnless_eq_nil.mp hm⟩
  obtain ⟨h, hm⟩ | ⟨-, hm⟩ := ite_eq_iff.mp hm
  · exact ⟨.center_max, h, addUnless_eq_nil.mp hm⟩
  obtain ⟨h, hm⟩ | ⟨-, hm⟩ := ite_eq_iff.mp hm
  · exact ⟨.fw_version, h, addUnless_eq_nil.mp hm⟩
  obtain ⟨h, hm⟩ | ⟨-, hm⟩ := ite_eq_iff.mp hm
  · exact ⟨.xac_x, h, addUnless_eq_nil.mp hm⟩
  obtain ⟨h, hm⟩ | ⟨-, hm⟩ := ite_eq_iff.mp hm
  · exact ⟨.xac_y, h, addUnless_eq_nil.mp hm⟩
  obtain ⟨h, hm⟩ | ⟨-, hm⟩ := ite_eq_iff.mp hm
  · exact ⟨.mouse_moved, h, addUnless_eq_nil.mp hm⟩
  obtain ⟨h, hm⟩ | ⟨-, hm⟩ := ite_eq_iff.mp hm
  · exact ⟨.clicked, h, addUnless_eq_nil.mp hm⟩
  obtain ⟨h, hm⟩ | ⟨-, hm⟩ := ite_eq_iff.mp hm
  · exact ⟨.mode, h, addUnless_eq_nil.mp hm⟩
  obtain ⟨h, hm⟩ | ⟨-, hm⟩ := ite_eq_iff.mp hm
  · exact ⟨.fw_slot, h, addUnless_eq_nil.mp hm⟩
  cases hm

theorem Assertion.fits_of_accepts {key : Assertion} {v : Json D JsString}
    (h : key.accepts v = true) : v.Fits 1 := by
  cases key with
  | calibrated | sensor_fault | sensor_observed | fw_pending | neutral | needs_calibration =>
      exact fits_of_isBool h
  | center_max | xac_x | xac_y => exact fits_of_isWithin h
  | fw_version => exact fits_of_isNonemptyText h
  | mouse_moved | clicked | mode | fw_slot => exact fits_of_includes h

/-- The simulator takes every assertion that the page accepts. -/
theorem takes_of_accepts [LawfulDoubleText D] {key : Assertion} {v : Json D JsString}
    (h : key.accepts v = true) (index : ℕ) {x : Expect D}
    {member : Assertion → Option (Json D JsString)} (hx : x.values = describedExpect member) :
    Takes index x member key v := by
  cases key with
  | calibrated =>
      exact takes_bool hx (fun x y => { x with calibrated := y }) (fun _ => rfl) (fun _ => rfl)
        rfl h
  | sensor_fault =>
      exact takes_bool hx (fun x y => { x with sensor_fault := y }) (fun _ => rfl) (fun _ => rfl)
        rfl h
  | sensor_observed =>
      exact takes_bool hx (fun x y => { x with sensor_observed := y }) (fun _ => rfl)
        (fun _ => rfl) rfl h
  | fw_pending =>
      exact takes_bool hx (fun x y => { x with fw_pending := y }) (fun _ => rfl) (fun _ => rfl)
        rfl h
  | neutral =>
      exact takes_bool hx (fun x y => { x with neutral := y }) (fun _ => rfl) (fun _ => rfl)
        rfl h
  | needs_calibration =>
      exact takes_bool hx (fun x y => { x with needs_calibration := y }) (fun _ => rfl)
        (fun _ => rfl) rfl h
  | center_max =>
      exact takes_number hx (fun x y => { x with center_max := y }) (fun _ => rfl)
        (fun _ => rfl) rfl h
  | fw_version => exact takes_fw_version hx h
  | xac_x =>
      exact takes_number hx (fun x y => { x with xac_x := y }) (fun _ => rfl) (fun _ => rfl)
        rfl h
  | xac_y =>
      exact takes_number hx (fun x y => { x with xac_y := y }) (fun _ => rfl) (fun _ => rfl)
        rfl h
  | mouse_moved =>
      exact takes_choice hx (fun x y => { x with mouse_moved := y }) (fun _ => rfl)
        (fun _ => rfl) rfl h
  | clicked =>
      exact takes_choice hx (fun x y => { x with clicked := y }) (fun _ => rfl) (fun _ => rfl)
        rfl h
  | mode =>
      exact takes_choice hx (fun x y => { x with mode := y }) (fun _ => rfl) (fun _ => rfl)
        rfl h
  | fw_slot =>
      exact takes_choice hx (fun x y => { x with fw_slot := y }) (fun _ => rfl) (fun _ => rfl)
        rfl h

theorem Assertion.key_injective : Function.Injective Assertion.key := by
  intro a b h
  cases a <;> cases b <;> first | rfl | exact absurd h (by decide)

omit [DoubleText D] in
theorem look_concat {members : List (JsString × Json D JsString)} {m : JsString × Json D JsString}
    {key : Assertion} (hkey : m.1 = units key.key) (hnew : m.1 ∉ members.map Prod.fst) :
    (fun a : Assertion => look (.object (members ++ [m])) a.key) =
      withMember (fun a => look (.object members) a.key) key m.2 := by
  funext a
  rw [look_object, List.find?_append, withMember]
  -- the key is new, so that the last member is the only one with it
  split_ifs with ha
  · have hnone : members.find? (fun m => decide (m.1 = units a.key)) = none := by
      refine List.find?_eq_none.mpr fun m' hm' hsame => hnew ?_
      rw [hkey, ← ha, ← of_decide_eq_true hsame]
      exact List.mem_map_of_mem hm'
    rw [hnone, Option.none_or, List.find?_cons_of_pos (by rw [hkey, ha]; exact decide_eq_true rfl)]
    rfl
  · have hne : ¬ decide (m.1 = units a.key) = true := by
      rw [hkey, decide_eq_true_eq, units_inj]
      exact fun h => ha (Assertion.key_injective h).symm
    have hlast : [m].find? (fun m => decide (m.1 = units a.key)) = none :=
      List.find?_cons_of_neg hne
    rw [hlast, Option.or_none]
    rfl

/-- The loop over an accepted expectation, from any place in it. -/
theorem foldlM_parseExpectMember [LawfulDoubleText D] {at_ : JsString} (index : ℕ)
    (done : List (JsString × Json D JsString)) {rest : List (JsString × Json D JsString)}
    (haccepted : ∀ m ∈ rest, expectMember at_ m = [])
    (hkeys : ((done ++ rest).map Prod.fst).Nodup) {x : Expect D}
    (hx : x.values = describedExpect fun a => look (.object done) a.key) :
    ∃ x', (rest.map readMember).foldlM (parseExpectMember index) x = .ok x' ∧
      x'.values = describedExpect fun a => look (.object (done ++ rest)) a.key := by
  induction rest generalizing done x with
  | nil => exact ⟨x, rfl, by rw [List.append_nil]; exact hx⟩
  | cons m rest ih =>
      obtain ⟨hm, hrest⟩ := List.forall_mem_cons.mp haccepted
      obtain ⟨key, hkey, haccepts⟩ := exists_assertion hm
      obtain ⟨x', hparse, hx'⟩ := takes_of_accepts haccepts index hx
      have hnew : m.1 ∉ done.map Prod.fst := by
        rw [List.map_append, List.map_cons] at hkeys
        exact fun hmem => (List.disjoint_of_nodup_append hkeys) hmem List.mem_cons_self
      have hmember : readMember m = (bytes key.key, readBack m.2) := by
        rw [readMember, hkey, encode_units]
      -- the member moves from what is still to come to what is done
      have hshift : done ++ m :: rest = done ++ [m] ++ rest := by simp
      rw [hshift] at hkeys ⊢
      rw [← look_concat hkey hnew] at hx'
      rw [List.map_cons, List.foldlM_cons, hmember, hparse]
      exact ih _ hrest hkeys hx'

theorem parseExpect_readBack [LawfulDoubleText D] {e : Json D JsString} {at_ : JsString}
    (h : validateSimExpect e at_ = []) (hkeys : e.distinctKeys = true) (index : ℕ) :
    ∃ x, parseExpect (readBack e) index = .ok x ∧
      x.values = describedExpect fun a => look e a.key := by
  unfold validateSimExpect at h
  split_ifs at h with hempty
  cases e with
  | object members =>
      rw [SimJson.readBack_object]
      exact foldlM_parseExpectMember index [] (List.flatMap_eq_nil_iff.mp h)
        (Json.distinctKeys_object.mp hkeys).1 rfl
  | _ => exact absurd rfl hempty

end Expectations

end PageScript

end OmegaStick
