import OmegaStick.Simulator.ReadNumber
import OmegaStick.Simulator.ReadString

/-!
# The parser reads what `JSON.stringify` writes

`readBack` is what the simulator gets of a page's value: the same tree, strings in UTF-8
and numbers that are read back.  The parser returns it (`parseValue_textBytes`) unless
some string holds a lone surrogate (`parseValue_of_not_paired`).
-/

namespace OmegaStick

open DecimalText (isDigit)
open Json (textBytes quoteBytes memberBytes JsString AllPaired)
open Utf16

namespace SimJson

variable {D : Type} [DoubleText D]

/-- What the simulator gets of a page's value. -/
def readBack : Json D JsString → Value D :=
  Json.Fold.run
    { null := .null
      bool := .bool
      number n :=
        if (DoubleText.value n).isSome then
          .number (DoubleText.strtod (DoubleText.numeral n).text)
        else .null
      string s := .string (encode s)
      array := .array
      object members := .object (members.map fun m => (encode m.1, m.2)) }

/-- A member as the simulator gets it. -/
def readMember (m : JsString × Json D JsString) : List UInt8 × Value D :=
  (encode m.1, readBack m.2)

/-! ## White space -/

theorem skipWs_of_head {text : List UInt8} (h : ∀ c ∈ text.head?, isSpace c = false) :
    skipWs text = text := (DecimalText.takeWhile_dropWhile_of_not h).2

theorem isSpace_of_isDigit {c : UInt8} (h : isDigit c = true) : isSpace c = false := by
  have hne {w : UInt8} (hdigit : isDigit w = false) : c ≠ w := by
    rintro rfl
    rw [h] at hdigit
    cases hdigit
  simp only [isSpace, Bool.or_eq_false_iff, decide_eq_false_iff_not]
  exact ⟨⟨⟨hne rfl, hne rfl⟩, hne rfl⟩, hne rfl⟩

/-- No value's text starts with white space, or with the end of an array. -/
theorem exists_textBytes (value : Json D JsString) :
    ∃ c more, textBytes value = c :: more ∧ isSpace c = false ∧ c ≠ 93 := by
  cases value with
  | null => exact ⟨110, _, Json.textBytes_null, by decide⟩
  | bool b =>
      rw [Json.textBytes_bool]
      cases b
      · exact ⟨102, _, rfl, by decide⟩
      · exact ⟨116, _, rfl, by decide⟩
  | number n =>
      rw [Json.textBytes_number]
      split_ifs
      · obtain ⟨c, more, htext, hc⟩ := exists_text (DoubleText.numeral n)
        refine ⟨c, more, htext, ?_⟩
        rcases hc with rfl | hc
        · decide
        · refine ⟨isSpace_of_isDigit hc, ?_⟩
          rintro rfl
          exact absurd hc (by decide)
      · exact ⟨110, _, rfl, by decide⟩
  | string s => exact ⟨34, _, (Json.textBytes_string s).trans (Json.quoteBytes_eq s), by decide⟩
  | array items => exact ⟨91, _, Json.textBytes_array items, by decide⟩
  | object members => exact ⟨123, _, Json.textBytes_object members, by decide⟩

/-- What stands between a value and the end of its container. -/
def tailBytes (texts : List (List UInt8)) (close : UInt8) (after : List UInt8) : List UInt8 :=
  texts.flatMap (44 :: ·) ++ close :: after

theorem separated_append (text : List UInt8) (rest : List (List UInt8)) (close : UInt8)
    (after : List UInt8) : (text :: rest).separated 44 ++ close :: after =
      text ++ tailBytes rest close after := List.append_assoc ..

theorem tailBytes_cons (text : List UInt8) (rest : List (List UInt8)) (close : UInt8)
    (after : List UInt8) :
    tailBytes (text :: rest) close after = 44 :: (text ++ tailBytes rest close after) := by
  rw [tailBytes, List.flatMap_cons, List.append_assoc]
  rfl

theorem length_tailBytes (texts : List (List UInt8)) (close : UInt8) (after : List UInt8) :
    texts.length ≤ (tailBytes texts close after).length := by
  induction texts with
  | nil => exact Nat.zero_le _
  | cons text rest ih =>
      rw [tailBytes_cons, List.length_cons, List.length_cons, List.length_append]
      omega

section Tail

variable {close : UInt8} (hclose : close = 93 ∨ close = 125)

include hclose

theorem head_tailBytes (texts : List (List UInt8)) (after : List UInt8) :
    ∀ c ∈ (tailBytes texts close after).head?, c = 44 ∨ c = 93 ∨ c = 125 := by
  intro c hc
  cases texts with
  | nil =>
      obtain rfl := Option.some.inj hc
      exact .inr hclose
  | cons text rest =>
      rw [tailBytes_cons] at hc
      exact .inl (Option.some.inj hc).symm

theorem ends_tailBytes (texts : List (List UInt8)) (after : List UInt8) :
    Ends (tailBytes texts close after) := by
  intro c hc
  rcases head_tailBytes hclose texts after c hc with rfl | rfl | rfl <;> decide

theorem skipWs_tailBytes (texts : List (List UInt8)) (after : List UInt8) :
    skipWs (tailBytes texts close after) = tailBytes texts close after := by
  refine skipWs_of_head fun c hc => ?_
  rcases head_tailBytes hclose texts after c hc with rfl | rfl | rfl <;> rfl

end Tail

/-! ## Arrays -/

/-- The parser reads the value, whatever follows its text. -/
def Reads (parseItem : List UInt8 → Parsed (Value D × List UInt8)) (value : Json D JsString) :
    Prop :=
  ∀ after, Ends after → parseItem (textBytes value ++ after) = .ok (readBack value, after)

/-- The parser refuses the value, whatever follows its text. -/
def Refuses (parseItem : List UInt8 → Parsed (Value D × List UInt8)) (value : Json D JsString) :
    Prop :=
  ∀ after, Ends after → ∃ e, parseItem (textBytes value ++ after) = .error e

section Loops

variable {parseItem : List UInt8 → Parsed (Value D × List UInt8)}

theorem skipWs_textBytes (value : Json D JsString) (text : List UInt8) :
    skipWs (textBytes value ++ text) = textBytes value ++ text := by
  obtain ⟨c, more, htext, hc, -⟩ := exists_textBytes value
  rw [htext]
  exact skipWs_of_head fun b hb => Option.some.inj hb ▸ hc

/-- One round of the loop, on an item that is read. -/
theorem arrayLoop_succ {item : Json D JsString} (h : Reads parseItem item) (fuel : ℕ)
    (items : List (Value D)) (texts : List (List UInt8)) (after : List UInt8) :
    arrayLoop parseItem (fuel + 1) items (textBytes item ++ tailBytes texts 93 after) =
      match texts with
      | [] => .ok (.array (items ++ [readBack item]), after)
      | text :: rest =>
          arrayLoop parseItem fuel (items ++ [readBack item])
            (text ++ tailBytes rest 93 after) := by
  rw [arrayLoop, skipWs_textBytes, h _ (ends_tailBytes (.inl rfl) texts after)]
  dsimp only [bind, Except.bind]
  rw [skipWs_tailBytes (.inl rfl)]
  cases texts with
  | nil => rfl
  | cons text rest => rw [tailBytes_cons, consume_cons]

theorem arrayLoop_textBytes {item : Json D JsString} {rest : List (Json D JsString)}
    (h : ∀ v ∈ item :: rest, Reads parseItem v) {fuel : ℕ} (hfuel : rest.length < fuel)
    (items : List (Value D)) (after : List UInt8) :
    arrayLoop parseItem fuel items
        (textBytes item ++ tailBytes (rest.map textBytes) 93 after) =
      .ok (.array (items ++ (item :: rest).map readBack), after) := by
  induction rest generalizing item fuel items with
  | nil =>
      obtain ⟨left, rfl⟩ : ∃ left, fuel = left + 1 := ⟨fuel - 1, by omega⟩
      exact arrayLoop_succ (h item List.mem_cons_self) left items [] after
  | cons next rest ih =>
      obtain ⟨hitem, hrest⟩ := List.forall_mem_cons.mp h
      rw [List.length_cons] at hfuel
      obtain ⟨left, rfl⟩ : ∃ left, fuel = left + 1 := ⟨fuel - 1, by omega⟩
      rw [List.map_cons, arrayLoop_succ hitem]
      dsimp only
      rw [ih hrest (by omega), List.append_assoc]
      rfl

/-- A refused item ends the loop. -/
theorem arrayLoop_error {item : Json D JsString} (h : Refuses parseItem item) (fuel : ℕ)
    (items : List (Value D)) (texts : List (List UInt8)) (after : List UInt8) :
    ∃ e, arrayLoop parseItem (fuel + 1) items (textBytes item ++ tailBytes texts 93 after) =
      .error e := by
  obtain ⟨e, he⟩ := h _ (ends_tailBytes (.inl rfl) texts after)
  rw [arrayLoop, skipWs_textBytes, he]
  exact ⟨e, rfl⟩

theorem arrayLoop_of_refuses {item : Json D JsString} {rest : List (Json D JsString)}
    (h : ∀ v ∈ item :: rest, Reads parseItem v ∨ Refuses parseItem v)
    (hbad : ∃ v ∈ item :: rest, Refuses parseItem v) {fuel : ℕ} (hfuel : rest.length < fuel)
    (items : List (Value D)) (after : List UInt8) :
    ∃ e, arrayLoop parseItem fuel items
      (textBytes item ++ tailBytes (rest.map textBytes) 93 after) = .error e := by
  induction rest generalizing item fuel items with
  | nil =>
      obtain ⟨left, rfl⟩ : ∃ left, fuel = left + 1 := ⟨fuel - 1, by omega⟩
      obtain ⟨v, hv, hrefuses⟩ := hbad
      rw [List.mem_singleton.mp hv] at hrefuses
      exact arrayLoop_error hrefuses left items [] after
  | cons next rest ih =>
      obtain ⟨hitem, hrest⟩ := List.forall_mem_cons.mp h
      rw [List.length_cons] at hfuel
      obtain ⟨left, rfl⟩ : ∃ left, fuel = left + 1 := ⟨fuel - 1, by omega⟩
      -- the loop ends at the first item that is refused
      rcases (List.exists_mem_cons_iff _ _ _).mp hbad with hrefuses | hlater
      · exact arrayLoop_error hrefuses left items _ after
      rcases hitem with hreads | hrefuses
      · rw [List.map_cons, arrayLoop_succ hreads]
        exact ih hrest hlater (by omega) _
      · exact arrayLoop_error hrefuses left items _ after

/-! ## Objects -/

omit [DoubleText D] in
theorem set_of_notMem {key : List UInt8} {members : List (List UInt8 × Value D)}
    (h : key ∉ members.map Prod.fst) (value : Value D) :
    set key value members = members ++ [(key, value)] := by
  induction members with
  | nil => rfl
  | cons m rest ih =>
      rw [List.map_cons, List.mem_cons, not_or] at h
      rw [set, if_neg fun heq => h.1 heq.symm, ih h.2]
      rfl

theorem skipWs_memberBytes (m : JsString × Json D JsString) (text : List UInt8) :
    skipWs (memberBytes m ++ text) = memberBytes m ++ text := by
  rw [memberBytes, Json.quoteBytes_eq]
  exact skipWs_of_head fun _ hb => Option.some.inj hb ▸ rfl

theorem skipWs_colon (text : List UInt8) : skipWs (58 :: text) = 58 :: text :=
  skipWs_of_head fun _ hb => Option.some.inj hb ▸ rfl

theorem objectLoop_succ {m : JsString × Json D JsString} (hkey : Paired m.1)
    (h : Reads parseItem m.2) (fuel : ℕ) (members : List (List UInt8 × Value D))
    (texts : List (List UInt8)) (after : List UInt8) :
    objectLoop parseItem (fuel + 1) members (memberBytes m ++ tailBytes texts 125 after) =
      match texts with
      | [] => .ok (.object (set (encode m.1) (readBack m.2) members), after)
      | text :: rest =>
          objectLoop parseItem fuel (set (encode m.1) (readBack m.2) members)
            (text ++ tailBytes rest 125 after) := by
  have hvalue := h _ (ends_tailBytes (.inr rfl) texts after)
  rw [objectLoop, skipWs_memberBytes, memberBytes, List.append_assoc,
    parseString_quoteBytes hkey]
  have hclose : (125 : UInt8) = 93 ∨ (125 : UInt8) = 125 := .inr rfl
  simp only [bind, Except.bind, List.cons_append, skipWs_colon, consume_cons, skipWs_textBytes,
    hvalue, skipWs_tailBytes hclose]
  cases texts with
  | nil => rfl
  | cons text rest => rw [tailBytes_cons, consume_cons]

theorem objectLoop_textBytes {m : JsString × Json D JsString}
    {rest : List (JsString × Json D JsString)}
    (h : ∀ m' ∈ m :: rest, Paired m'.1 ∧ Reads parseItem m'.2) {fuel : ℕ}
    (hfuel : rest.length < fuel) (members : List (List UInt8 × Value D))
    (hkeys : (members.map Prod.fst ++ (m :: rest).map fun m => encode m.1).Nodup)
    (after : List UInt8) :
    objectLoop parseItem fuel members
        (memberBytes m ++ tailBytes (rest.map memberBytes) 125 after) =
      .ok (.object (members ++ (m :: rest).map readMember), after) := by
  induction rest generalizing m fuel members with
  | nil =>
      obtain ⟨left, rfl⟩ : ∃ left, fuel = left + 1 := ⟨fuel - 1, by omega⟩
      obtain ⟨hkey, hreads⟩ := h m List.mem_cons_self
      -- the key is new, so that `set` appends
      have hnew : encode m.1 ∉ members.map Prod.fst := fun hmem =>
        (List.disjoint_of_nodup_append hkeys) hmem List.mem_cons_self
      have hstep := objectLoop_succ hkey hreads left members [] after
      rw [set_of_notMem hnew] at hstep
      exact hstep
  | cons next rest ih =>
      obtain ⟨⟨hkey, hreads⟩, hrest⟩ := List.forall_mem_cons.mp h
      rw [List.length_cons] at hfuel
      obtain ⟨left, rfl⟩ : ∃ left, fuel = left + 1 := ⟨fuel - 1, by omega⟩
      have hnew : encode m.1 ∉ members.map Prod.fst := fun hmem =>
        (List.disjoint_of_nodup_append hkeys) hmem List.mem_cons_self
      rw [List.map_cons, objectLoop_succ hkey hreads]
      dsimp only
      rw [set_of_notMem hnew, ih hrest (by omega) _ ?_, List.append_assoc]
      · rfl
      · rw [List.map_append, List.append_assoc]
        exact hkeys

theorem objectLoop_error {m : JsString × Json D JsString}
    (h : ¬ Paired m.1 ∨ Refuses parseItem m.2) (fuel : ℕ)
    (members : List (List UInt8 × Value D)) (texts : List (List UInt8)) (after : List UInt8) :
    ∃ e, objectLoop parseItem (fuel + 1) members
      (memberBytes m ++ tailBytes texts 125 after) = .error e := by
  rw [objectLoop, skipWs_memberBytes, memberBytes, List.append_assoc]
  by_cases hkey : Paired m.1
  · obtain ⟨e, he⟩ := (h.resolve_left (not_not.mpr hkey)) _ (ends_tailBytes (.inr rfl) texts after)
    refine ⟨e, ?_⟩
    rw [parseString_quoteBytes hkey]
    simp only [bind, Except.bind, List.cons_append, skipWs_colon, consume_cons, skipWs_textBytes,
      he]
  · obtain ⟨e, he⟩ := parseString_of_not_paired hkey
      (58 :: textBytes m.2 ++ tailBytes texts 125 after)
    rw [he]
    exact ⟨e, rfl⟩

theorem objectLoop_of_refuses {m : JsString × Json D JsString}
    {rest : List (JsString × Json D JsString)}
    (h : ∀ m' ∈ m :: rest, Reads parseItem m'.2 ∨ Refuses parseItem m'.2)
    (hbad : ∃ m' ∈ m :: rest, ¬ Paired m'.1 ∨ Refuses parseItem m'.2) {fuel : ℕ}
    (hfuel : rest.length < fuel) (members : List (List UInt8 × Value D)) (after : List UInt8) :
    ∃ e, objectLoop parseItem fuel members
      (memberBytes m ++ tailBytes (rest.map memberBytes) 125 after) = .error e := by
  induction rest generalizing m fuel members with
  | nil =>
      obtain ⟨left, rfl⟩ : ∃ left, fuel = left + 1 := ⟨fuel - 1, by omega⟩
      obtain ⟨m', hm', hrefuses⟩ := hbad
      rw [List.mem_singleton.mp hm'] at hrefuses
      exact objectLoop_error hrefuses left members [] after
  | cons next rest ih =>
      obtain ⟨hitem, hrest⟩ := List.forall_mem_cons.mp h
      rw [List.length_cons] at hfuel
      obtain ⟨left, rfl⟩ : ∃ left, fuel = left + 1 := ⟨fuel - 1, by omega⟩
      -- a key that is no text ends the loop before its value
      by_cases hkey : Paired m.1
      · rcases hitem with hreads | hrefuses
        · rcases (List.exists_mem_cons_iff _ _ _).mp hbad with hnow | hlater
          · exact objectLoop_error hnow left members _ after
          · rw [List.map_cons, objectLoop_succ hkey hreads]
            exact ih hrest hlater (by omega) _
        · exact objectLoop_error (.inr hrefuses) left members _ after
      · exact objectLoop_error (.inl hkey) left members _ after

/-! ## Containers -/

theorem parseArray_textBytes {items : List (Json D JsString)}
    (h : ∀ v ∈ items, Reads parseItem v) (after : List UInt8) :
    parseArray parseItem ((items.map textBytes).separated 44 ++ 93 :: after) =
      .ok (.array (items.map readBack), after) := by
  cases items with
  | nil => rfl
  | cons item rest =>
      obtain ⟨c, more, htext, -, hc⟩ := exists_textBytes item
      have hlength := length_tailBytes (rest.map textBytes) 93 after
      rw [List.length_map] at hlength
      have hclose : consume 93 (textBytes item ++ tailBytes (rest.map textBytes) 93 after) =
          none := by
        rw [htext]
        exact if_neg hc
      rw [List.map_cons, separated_append, parseArray, skipWs_textBytes, hclose]
      dsimp only
      rw [arrayLoop_textBytes h (by rw [List.length_append]; omega)]
      rfl

theorem parseArray_of_refuses {items : List (Json D JsString)}
    (h : ∀ v ∈ items, Reads parseItem v ∨ Refuses parseItem v)
    (hbad : ∃ v ∈ items, Refuses parseItem v) (after : List UInt8) :
    ∃ e, parseArray parseItem ((items.map textBytes).separated 44 ++ 93 :: after) =
      .error e := by
  cases items with
  | nil =>
      obtain ⟨v, hv, -⟩ := hbad
      cases hv
  | cons item rest =>
      obtain ⟨c, more, htext, -, hc⟩ := exists_textBytes item
      have hlength := length_tailBytes (rest.map textBytes) 93 after
      rw [List.length_map] at hlength
      have hclose : consume 93 (textBytes item ++ tailBytes (rest.map textBytes) 93 after) =
          none := by
        rw [htext]
        exact if_neg hc
      rw [List.map_cons, separated_append, parseArray, skipWs_textBytes, hclose]
      dsimp only
      exact arrayLoop_of_refuses h hbad (by rw [List.length_append]; omega) [] after

theorem consume_memberBytes (m : JsString × Json D JsString) (text : List UInt8) :
    consume 125 (memberBytes m ++ text) = none := by
  rw [memberBytes, Json.quoteBytes_eq]
  rfl

theorem parseObject_textBytes {members : List (JsString × Json D JsString)}
    (h : ∀ m ∈ members, Paired m.1 ∧ Reads parseItem m.2)
    (hkeys : (members.map fun m => encode m.1).Nodup) (after : List UInt8) :
    parseObject parseItem ((members.map memberBytes).separated 44 ++ 125 :: after) =
      .ok (.object (members.map readMember), after) := by
  cases members with
  | nil => rfl
  | cons m rest =>
      have hlength := length_tailBytes (rest.map memberBytes) 125 after
      rw [List.length_map] at hlength
      rw [List.map_cons, separated_append, parseObject, skipWs_memberBytes, consume_memberBytes]
      dsimp only
      rw [objectLoop_textBytes h (by rw [List.length_append]; omega) [] hkeys]
      rfl

theorem parseObject_of_refuses {members : List (JsString × Json D JsString)}
    (h : ∀ m ∈ members, Reads parseItem m.2 ∨ Refuses parseItem m.2)
    (hbad : ∃ m ∈ members, ¬ Paired m.1 ∨ Refuses parseItem m.2) (after : List UInt8) :
    ∃ e, parseObject parseItem ((members.map memberBytes).separated 44 ++ 125 :: after) =
      .error e := by
  cases members with
  | nil =>
      obtain ⟨m, hm, -⟩ := hbad
      cases hm
  | cons m rest =>
      have hlength := length_tailBytes (rest.map memberBytes) 125 after
      rw [List.length_map] at hlength
      rw [List.map_cons, separated_append, parseObject, skipWs_memberBytes, consume_memberBytes]
      dsimp only
      exact objectLoop_of_refuses h hbad (by rw [List.length_append]; omega) [] after

end Loops

/-! ## Values -/

theorem readBack_array (items : List (Json D JsString)) :
    readBack (.array items) = .array (items.map readBack) := by
  rw [readBack, Json.Fold.run_array]

theorem readBack_object (members : List (JsString × Json D JsString)) :
    readBack (.object members) = .object (members.map readMember) := by
  rw [readBack, Json.Fold.run_object]
  change Json.object ((members.map fun m => (m.1, readBack m.2)).map _) = _
  rw [List.map_map]
  rfl

theorem parseValue_bool (levels : ℕ) (b : Bool) (after : List UInt8) :
    (parseValue (levels + 1) (bytes (if b then "true" else "false") ++ after) :
      Parsed (Value D × List UInt8)) = .ok (.bool b, after) := by
  cases b <;> rfl

theorem parseValue_null (levels : ℕ) (after : List UInt8) :
    (parseValue (levels + 1) (bytes "null" ++ after) : Parsed (Value D × List UInt8)) =
      .ok (.null, after) := rfl

theorem parseValue_number (levels : ℕ) (n : Json.Numeral) {after : List UInt8}
    (h : Ends after) : (parseValue (levels + 1) (n.text ++ after) :
      Parsed (Value D × List UInt8)) = .ok (.number (DoubleText.strtod n.text), after) := by
  obtain ⟨c, more, htext, hc⟩ := exists_text n
  have hnumber := parseNumber_text (D := D) n h
  have hne {w : UInt8} (hw : w ≠ 45) (hdigit : isDigit w = false) : c ≠ w := by
    rintro rfl
    rcases hc with hc | hc
    · exact hw hc
    · rw [hc] at hdigit
      cases hdigit
  rw [htext, List.cons_append] at hnumber ⊢
  rw [parseValue, if_neg (hne (by decide) rfl), if_neg (hne (by decide) rfl),
    if_neg (hne (by decide) rfl), parseScalar_number hc, hnumber]

theorem readBack_number (n : D) : readBack (.number n) =
    if (DoubleText.value n).isSome then .number (DoubleText.strtod (DoubleText.numeral n).text)
    else .null := by
  rw [readBack, Json.Fold.run_number]

/-- **What is written is read.** -/
theorem parseValue_textBytes {levels : ℕ} {value : Json D JsString} (hfits : value.Fits levels)
    (hkeys : value.distinctKeys = true) (hpaired : AllPaired value) :
    Reads (parseValue levels) value := by
  induction levels generalizing value with
  | zero => cases value <;> exact hfits.elim
  | succ levels ih =>
      intro after hafter
      cases value with
      | null =>
          rw [Json.textBytes_null]
          exact parseValue_null levels after
      | bool b =>
          rw [Json.textBytes_bool]
          exact parseValue_bool levels b after
      | number n =>
          rw [Json.textBytes_number, readBack_number]
          split_ifs
          · exact parseValue_number levels _ hafter
          · exact parseValue_null levels after
      | string s =>
          have hread := parseString_quoteBytes (Json.allPaired_string.mp hpaired) after
          rw [Json.textBytes_string]
          rw [Json.quoteBytes_eq] at hread ⊢
          rw [List.cons_append] at hread ⊢
          rw [parseValue, if_neg (by decide), if_neg (by decide), if_pos rfl, hread]
          rfl
      -- the items are one level further down
      | array items =>
          have hitems : ∀ v ∈ items, Reads (parseValue levels) v := fun v hv =>
            ih (hfits v hv) (Json.distinctKeys_array.mp hkeys v hv)
              (Json.allPaired_array.mp hpaired v hv)
          rw [Json.textBytes_array, List.cons_append, List.append_assoc, parseValue,
            if_neg (by decide), if_pos rfl, readBack_array]
          exact parseArray_textBytes hitems after
      | object members =>
          obtain ⟨hnodup, hvalues⟩ := Json.distinctKeys_object.mp hkeys
          have hpairs := Json.allPaired_object.mp hpaired
          have hmembers : ∀ m ∈ members, Paired m.1 ∧ Reads (parseValue levels) m.2 := fun m hm =>
            ⟨(hpairs m hm).1, ih (hfits m hm) (hvalues m hm) (hpairs m hm).2⟩
          rw [Json.textBytes_object, List.cons_append, List.append_assoc, parseValue,
            if_pos rfl, readBack_object]
          exact parseObject_textBytes hmembers
            (Json.nodup_encode (fun m hm => (hpairs m hm).1) hnodup) after

/-- **A lone surrogate is refused**, wherever it stands. -/
theorem parseValue_of_not_paired {levels : ℕ} {value : Json D JsString}
    (hfits : value.Fits levels) (hkeys : value.distinctKeys = true)
    (hpaired : ¬ AllPaired value) : Refuses (parseValue levels) value := by
  induction levels generalizing value with
  | zero => cases value <;> exact hfits.elim
  | succ levels ih =>
      intro after hafter
      cases value with
      -- nothing but strings holds a surrogate
      | null => exact absurd nofun hpaired
      | bool b => exact absurd nofun hpaired
      | number n => exact absurd nofun hpaired
      | string s =>
          obtain ⟨e, he⟩ := parseString_of_not_paired (mt Json.allPaired_string.mpr hpaired) after
          rw [Json.textBytes_string]
          rw [Json.quoteBytes_eq] at he ⊢
          rw [List.cons_append] at he ⊢
          rw [parseValue, if_neg (by decide), if_neg (by decide), if_pos rfl, he]
          exact ⟨e, rfl⟩
      | array items =>
          have hitems : ∀ v ∈ items,
              Reads (parseValue levels) v ∨ Refuses (parseValue levels) v := fun v hv => by
            have hv' := Json.distinctKeys_array.mp hkeys v hv
            by_cases hp : AllPaired v
            · exact .inl (parseValue_textBytes (hfits v hv) hv' hp)
            · exact .inr (ih (hfits v hv) hv' hp)
          have hbad : ∃ v ∈ items, Refuses (parseValue levels) v := by
            rw [Json.allPaired_array] at hpaired
            push Not at hpaired
            obtain ⟨v, hv, hp⟩ := hpaired
            exact ⟨v, hv, ih (hfits v hv) (Json.distinctKeys_array.mp hkeys v hv) hp⟩
          rw [Json.textBytes_array, List.cons_append, List.append_assoc, parseValue,
            if_neg (by decide), if_pos rfl]
          exact parseArray_of_refuses hitems hbad after
      | object members =>
          obtain ⟨hnodup, hvalues⟩ := Json.distinctKeys_object.mp hkeys
          have hmembers : ∀ m ∈ members,
              Reads (parseValue levels) m.2 ∨ Refuses (parseValue levels) m.2 := fun m hm => by
            by_cases hp : AllPaired m.2
            · exact .inl (parseValue_textBytes (hfits m hm) (hvalues m hm) hp)
            · exact .inr (ih (hfits m hm) (hvalues m hm) hp)
          have hbad : ∃ m ∈ members, ¬ Paired m.1 ∨ Refuses (parseValue levels) m.2 := by
            rw [Json.allPaired_object] at hpaired
            push Not at hpaired
            obtain ⟨m, hm, hp⟩ := hpaired
            refine ⟨m, hm, ?_⟩
            by_cases hkey : Paired m.1
            · exact .inr (ih (hfits m hm) (hvalues m hm) (hp hkey))
            · exact .inl hkey
          rw [Json.textBytes_object, List.cons_append, List.append_assoc, parseValue, if_pos rfl]
          exact parseObject_of_refuses hmembers hbad after

/-! ## Whole texts -/

theorem parse_textBytes {value : Json D JsString} (hfits : value.Fits (kMaxDepth + 1))
    (hkeys : value.distinctKeys = true) (hpaired : AllPaired value) :
    parse (textBytes value) = .ok (readBack value) := by
  have hread := parseValue_textBytes hfits hkeys hpaired [] nofun
  have hspace := skipWs_textBytes value []
  rw [List.append_nil] at hread hspace
  rw [parse, run, hspace, hread]
  rfl

theorem parse_of_not_paired {value : Json D JsString} (hfits : value.Fits (kMaxDepth + 1))
    (hkeys : value.distinctKeys = true) (hpaired : ¬ AllPaired value) :
    ∃ e, (parse (textBytes value) : Except String (Value D)) = .error e := by
  obtain ⟨e, he⟩ := parseValue_of_not_paired hfits hkeys hpaired [] nofun
  have hspace := skipWs_textBytes value []
  rw [List.append_nil] at he hspace
  rw [parse, run, hspace, he]
  exact ⟨_, rfl⟩

end SimJson

end OmegaStick
