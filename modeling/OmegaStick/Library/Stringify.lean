import OmegaStick.Library.JsonText
import OmegaStick.Library.Unicode

/-!
# Writing a JSON value

`JSON.stringify` of a value whose strings are 16-bit units, as a text of scalar values: a
lone surrogate is written as an escape, so that every value has a text.  `textBytes` is
the text in UTF-8; the lemmas give its bytes by the kinds of value.
-/

open Utf16

/-- Texts with a separator between them. -/
def List.separated {α : Type} (separator : α) : List (List α) → List α
  | [] => []
  | text :: rest => text ++ rest.flatMap (separator :: ·)

namespace Json

abbrev JsString := List UInt16

/-! ## Strings without a lone surrogate -/

section Paired

variable {D : Type}

/-- No string of the value has a lone surrogate. -/
def AllPaired (value : Json D JsString) : Prop := ∀ s ∈ value.strings, Paired s

@[simp] theorem allPaired_string {s : JsString} :
    AllPaired (.string s : Json D JsString) ↔ Paired s := by
  simp [AllPaired]

@[simp] theorem allPaired_array {items : List (Json D JsString)} :
    AllPaired (.array items) ↔ ∀ item ∈ items, AllPaired item := by
  simp only [AllPaired, Json.mem_strings_array]
  constructor
  · exact fun h item hitem s hs => h s ⟨item, hitem, hs⟩
  · rintro h s ⟨item, hitem, hs⟩
    exact h item hitem s hs

@[simp] theorem allPaired_object {members : List (JsString × Json D JsString)} :
    AllPaired (.object members) ↔ ∀ m ∈ members, Paired m.1 ∧ AllPaired m.2 := by
  simp only [AllPaired, Json.mem_strings_object]
  constructor
  · exact fun h m hm => ⟨h m.1 ⟨m, hm, .inl rfl⟩, fun s hs => h s ⟨m, hm, .inr hs⟩⟩
  · rintro h s ⟨m, hm, rfl | hs⟩
    · exact (h m hm).1
    · exact (h m hm).2 s hs

/-- Keys that differ are still different in UTF-8. -/
theorem nodup_encode {members : List (JsString × Json D JsString)}
    (hpaired : ∀ m ∈ members, Paired m.1) (h : (members.map Prod.fst).Nodup) :
    (members.map fun m => encode m.1).Nodup := by
  have hmap : (members.map fun m => encode m.1) = (members.map Prod.fst).map encode := by
    rw [List.map_map]
    rfl
  rw [hmap]
  refine List.Nodup.map_on ?_ h
  intro a ha b hb heq
  obtain ⟨m, hm, rfl⟩ := List.mem_map.mp ha
  obtain ⟨m', hm', rfl⟩ := List.mem_map.mp hb
  exact (encode_inj (hpaired m hm) (hpaired m' hm')).mp heq

end Paired

variable {D : Type} [DoubleText D]

/-! ## The text of a value -/

def hexChar (d : ℕ) : Char := .ofNat (if d < 10 then 48 + d else 87 + d)

/-- `\u` and four digits. -/
def unicodeEscape (n : ℕ) : List Char :=
  "\\u".toList ++ [hexChar (n / 0x1000 % 0x10), hexChar (n / 0x100 % 0x10),
    hexChar (n / 0x10 % 0x10), hexChar (n % 0x10)]

def quotePoint : CodePoint → List Char
  | .surrogate unit => unicodeEscape unit.toNat
  | .scalar c =>
      if c.toNat = 8 then "\\b".toList
      else if c.toNat = 9 then "\\t".toList
      else if c.toNat = 10 then "\\n".toList
      else if c.toNat = 12 then "\\f".toList
      else if c.toNat = 13 then "\\r".toList
      else if c.toNat = 34 then "\\\"".toList
      else if c.toNat = 92 then "\\\\".toList
      else if c.toNat < 0x20 then unicodeEscape c.toNat
      else [c]

/-- `QuoteJSONString` -/
def quote (s : JsString) : List Char :=
  "\"".toList ++ (codePoints s).flatMap quotePoint ++ "\"".toList

/-- A numeral is ASCII. -/
def numeralChars (n : Numeral) : List Char := n.text.map fun c => .ofNat c.toNat

/-- `JSON.stringify`; a number that is not finite is written as `null`. -/
def stringify : Json D JsString → List Char :=
  Fold.run
    { null := "null".toList
      bool b := if b then "true".toList else "false".toList
      number n :=
        if (DoubleText.value n).isSome then numeralChars (DoubleText.numeral n) else "null".toList
      string := quote
      array items := "[".toList ++ items.separated ',' ++ "]".toList
      object members :=
        "\x7b".toList ++ (members.map fun m => quote m.1 ++ ":".toList ++ m.2).separated ',' ++
          "\x7d".toList }

/-! ## The text in UTF-8 -/

def textBytes (value : Json D JsString) : List UInt8 := utf8 (stringify value)

def quoteBytes (s : JsString) : List UInt8 := utf8 (quote s)

theorem utf8_separated (separator : Char) (texts : List (List Char)) (c : UInt8)
    (h : String.utf8EncodeChar separator = [c]) :
    utf8 (texts.separated separator) = (texts.map utf8).separated c := by
  cases texts with
  | nil => rfl
  | cons text rest =>
      have hrest : utf8 (rest.flatMap (separator :: ·)) = (rest.map utf8).flatMap (c :: ·) := by
        induction rest with
        | nil => rfl
        | cons next rest ih =>
            rw [List.flatMap_cons, List.map_cons, List.flatMap_cons, utf8_append, utf8_cons, h, ih]
            rfl
      rw [List.map_cons, List.separated, List.separated, utf8_append, hrest]

/-- ASCII stays as it is. -/
theorem utf8_map_ofNat {text : List UInt8} (h : ∀ c ∈ text, c.toNat < 0x80) :
    utf8 (text.map fun c => .ofNat c.toNat) = text := by
  induction text with
  | nil => rfl
  | cons c rest ih =>
      obtain ⟨hc, hrest⟩ := List.forall_mem_cons.mp h
      have hvalue : (Char.ofNat c.toNat).toNat = c.toNat := toNat_char (.inl (by omega))
      rw [List.map_cons, utf8_cons, ih hrest, utf8EncodeChar_of_lt (by omega), hvalue,
        UInt8.ofNat_toNat]
      rfl

@[simp] theorem textBytes_null : textBytes (.null : Json D JsString) = bytes "null" := by
  rw [textBytes, stringify, Fold.run_null]
  rfl

@[simp] theorem textBytes_bool (b : Bool) :
    textBytes (.bool b : Json D JsString) = bytes (if b then "true" else "false") := by
  rw [textBytes, stringify, Fold.run_bool]
  cases b <;> rfl

theorem textBytes_number (n : D) :
    textBytes (.number n : Json D JsString) =
      if (DoubleText.value n).isSome then (DoubleText.numeral n).text else bytes "null" := by
  rw [textBytes, stringify, Fold.run_number]
  dsimp only
  split_ifs
  · exact utf8_map_ofNat fun c => Numeral.lt_of_mem_text
  · rfl

@[simp] theorem textBytes_string (s : JsString) :
    textBytes (.string s : Json D JsString) = quoteBytes s := by
  rw [textBytes, stringify, Fold.run_string]
  rfl

theorem textBytes_array (items : List (Json D JsString)) :
    textBytes (.array items) = 91 :: ((items.map textBytes).separated 44 ++ [93]) := by
  have hopen : utf8 "[".toList = [91] := by decide
  have hclose : utf8 "]".toList = [93] := by decide
  rw [textBytes, stringify, Fold.run_array]
  change utf8 ("[".toList ++ (items.map stringify).separated ',' ++ "]".toList) = _
  rw [utf8_append, utf8_append, utf8_separated ',' _ 44 (by decide), hopen, hclose, List.map_map]
  rfl

/-- A member's text: the key, a colon and the value. -/
def memberBytes (m : JsString × Json D JsString) : List UInt8 :=
  quoteBytes m.1 ++ 58 :: textBytes m.2

theorem textBytes_object (members : List (JsString × Json D JsString)) :
    textBytes (.object members) = 123 :: ((members.map memberBytes).separated 44 ++ [125]) := by
  have hopen : utf8 "\x7b".toList = [123] := by decide
  have hclose : utf8 "\x7d".toList = [125] := by decide
  have hcolon : utf8 ":".toList = [58] := by decide
  have hmember : utf8 ∘ (fun m : JsString × List Char => quote m.1 ++ ":".toList ++ m.2) ∘
      (fun m : JsString × Json D JsString => (m.1, stringify m.2)) = memberBytes := by
    funext m
    change utf8 (quote m.1 ++ ":".toList ++ stringify m.2) = memberBytes m
    rw [utf8_append, utf8_append, hcolon, List.append_assoc]
    rfl
  rw [textBytes, stringify, Fold.run_object]
  dsimp only
  rw [utf8_append, utf8_append, utf8_separated ',' _ 44 (by decide), hopen, hclose, List.map_map,
    List.map_map, ← hmember]
  rfl

/-! ## The bytes of a string -/

def pointBytes (point : CodePoint) : List UInt8 := utf8 (quotePoint point)

theorem quoteBytes_eq (s : JsString) :
    quoteBytes s = 34 :: ((codePoints s).flatMap pointBytes ++ [34]) := by
  have hmark : utf8 "\"".toList = [34] := by decide
  have hpoints : ∀ points : List CodePoint,
      utf8 (points.flatMap quotePoint) = points.flatMap pointBytes := by
    intro points
    induction points with
    | nil => rfl
    | cons point rest ih => rw [List.flatMap_cons, List.flatMap_cons, utf8_append, ih, pointBytes]
  rw [quoteBytes, quote, utf8_append, utf8_append, hmark, hpoints]
  rfl

end Json
