import OmegaStick.Library.JsonText
import OmegaStick.Library.Unicode

/-!
# The grammar of JSON texts

The grammar of RFC 8259 over bytes.  A string holds any byte from 0x20 on as it is; an
escaped surrogate stands before or after its partner.  `IsValue` counts levels: no value
of the text stands more than that many deep, the outermost one counted.
-/

namespace JsonGrammar

open Utf16 (bytes)

/-! ## White space -/

def IsSpace (c : UInt8) : Prop := c = 0x20 ∨ c = 0x09 ∨ c = 0x0A ∨ c = 0x0D

def Ws (text : List UInt8) : Prop := ∀ c ∈ text, IsSpace c

/-- What stands between white space. -/
def Padded (P : List UInt8 → Prop) (text : List UInt8) : Prop :=
  ∃ before body after, Ws before ∧ P body ∧ Ws after ∧ text = before ++ (body ++ after)

/-- One text or more, with commas between them. -/
inductive Listed (P : List UInt8 → Prop) : List UInt8 → Prop
  | one {text : List UInt8} : P text → Listed P text
  | more {text rest : List UInt8} : P text → Listed P rest → Listed P (text ++ 0x2C :: rest)

/-! ## Strings -/

/-- A digit of either case. -/
def hexValue (c : UInt8) : Option ℕ :=
  if 0x30 ≤ c && c ≤ 0x39 then some (c.toNat - 0x30)
  else if 0x61 ≤ c && c ≤ 0x66 then some (c.toNat - 0x61 + 10)
  else if 0x41 ≤ c && c ≤ 0x46 then some (c.toNat - 0x41 + 10)
  else none

/-- Four digits and the number they are. -/
inductive Hex4 : List UInt8 → ℕ → Prop
  | digits {a b c d : UInt8} {i j k l : ℕ} : hexValue a = some i → hexValue b = some j →
      hexValue c = some k → hexValue d = some l →
      Hex4 [a, b, c, d] (((i * 16 + j) * 16 + k) * 16 + l)

def IsLead (n : ℕ) : Prop := 0xD800 ≤ n ∧ n ≤ 0xDBFF

def IsTrail (n : ℕ) : Prop := 0xDC00 ≤ n ∧ n ≤ 0xDFFF

/-- What stands between a string's quotes. -/
inductive Chars : List UInt8 → Prop
  | nil : Chars []
  | raw {c : UInt8} {rest : List UInt8} :
      0x20 ≤ c → c ≠ 0x22 → c ≠ 0x5C → Chars rest → Chars (c :: rest)
  | escape {e : UInt8} {rest : List UInt8} :
      e ∈ [0x22, 0x5C, 0x2F, 0x62, 0x66, 0x6E, 0x72, 0x74] → Chars rest →
      Chars (0x5C :: e :: rest)
  | unicode {digits rest : List UInt8} {n : ℕ} :
      Hex4 digits n → ¬ IsLead n → ¬ IsTrail n → Chars rest →
      Chars (0x5C :: 0x75 :: (digits ++ rest))
  | pair {lead trail rest : List UInt8} {n m : ℕ} :
      Hex4 lead n → IsLead n → Hex4 trail m → IsTrail m → Chars rest →
      Chars (0x5C :: 0x75 :: (lead ++ 0x5C :: 0x75 :: (trail ++ rest)))

def IsString (text : List UInt8) : Prop := ∃ chars, Chars chars ∧ text = 0x22 :: (chars ++ [0x22])

/-! ## Values -/

def IsArray (P : List UInt8 → Prop) (text : List UInt8) : Prop :=
  ∃ inner, (Ws inner ∨ Listed (Padded P) inner) ∧ text = 0x5B :: (inner ++ [0x5D])

def IsMember (P : List UInt8 → Prop) (text : List UInt8) : Prop :=
  ∃ key value, Padded IsString key ∧ Padded P value ∧ text = key ++ 0x3A :: value

def IsObject (P : List UInt8 → Prop) (text : List UInt8) : Prop :=
  ∃ inner, (Ws inner ∨ Listed (IsMember P) inner) ∧ text = 0x7B :: (inner ++ [0x7D])

def IsNumber (text : List UInt8) : Prop := ∃ n : Json.Numeral, text = n.text

def IsValue : ℕ → List UInt8 → Prop
  | 0, _ => False
  | levels + 1, text =>
      text = bytes "null" ∨ text = bytes "true" ∨ text = bytes "false" ∨ IsNumber text ∨
        IsString text ∨ IsArray (IsValue levels) text ∨ IsObject (IsValue levels) text

/-- A text whose values stand at depths up to `maxDepth`, the outermost one at depth 0. -/
def IsText (maxDepth : ℕ) (text : List UInt8) : Prop := Padded (IsValue (maxDepth + 1)) text

/-! ## The first byte -/

/-- The text starts with neither white space nor the end of a container. -/
def Starts (text : List UInt8) : Prop :=
  ∃ c more, text = c :: more ∧ ¬ IsSpace c ∧ c ≠ 0x5D ∧ c ≠ 0x7D

theorem isSpace_of_mem_head {text : List UInt8} (h : Ws text) : ∀ c ∈ text.head?, IsSpace c :=
  fun _ hc => h _ (List.mem_of_mem_head? hc)

/-- A value starts with a byte that is neither white space nor the end of a container. -/
theorem starts_value (levels : ℕ) {text : List UInt8} (h : IsValue levels text) :
    Starts text := by
  cases levels with
  | zero => exact h.elim
  | succ levels =>
      rcases h with rfl | rfl | rfl | ⟨n, rfl⟩ | ⟨chars, -, rfl⟩ | ⟨inner, -, rfl⟩ | ⟨inner, -, rfl⟩
      · exact ⟨0x6E, _, rfl, by unfold IsSpace; decide, by decide⟩
      · exact ⟨0x74, _, rfl, by unfold IsSpace; decide, by decide⟩
      · exact ⟨0x66, _, rfl, by unfold IsSpace; decide, by decide⟩
      · have hdigit {d : UInt8} (hd : DecimalText.isDigit d = true) :
            ¬ IsSpace d ∧ d ≠ 0x5D ∧ d ≠ 0x7D := by
          refine ⟨?_, ?_, ?_⟩ <;> rintro h
          · rcases h with rfl | rfl | rfl | rfl <;> exact absurd hd (by decide)
          · rw [h] at hd
            exact absurd hd (by decide)
          · rw [h] at hd
            exact absurd hd (by decide)
        unfold Json.Numeral.text Json.Numeral.sign
        split_ifs
        · exact ⟨0x2D, _, rfl, by unfold IsSpace; decide, by decide⟩
        · rcases n.whole_eq with hzero | ⟨d, more, hwhole, -⟩
          · rw [hzero]
            exact ⟨0x30, _, rfl, by unfold IsSpace; decide, by decide⟩
          · rw [hwhole]
            exact ⟨d, _, rfl, hdigit (n.isDigit_whole d (hwhole ▸ List.mem_cons_self))⟩
      · exact ⟨0x22, _, rfl, by unfold IsSpace; decide, by decide⟩
      · exact ⟨0x5B, _, rfl, by unfold IsSpace; decide, by decide⟩
      · exact ⟨0x7B, _, rfl, by unfold IsSpace; decide, by decide⟩

/-! ## White space in front -/

theorem ws_nil : Ws [] := fun _ h => absurd h List.not_mem_nil

/-- Without the white space in front the text is still one of the rule. -/
def Trims (Q : List UInt8 → Prop) : Prop :=
  ∀ {text}, Q text → ∃ before rest, Ws before ∧ text = before ++ rest ∧ Q rest ∧ Starts rest

theorem Starts.append {text : List UInt8} (h : Starts text) (rest : List UInt8) :
    Starts (text ++ rest) := by
  obtain ⟨c, more, rfl, hc⟩ := h
  exact ⟨c, more ++ rest, rfl, hc⟩

theorem trims_padded {P : List UInt8 → Prop} (h : ∀ {text}, P text → Starts text) :
    Trims (Padded P) := by
  rintro text ⟨before, body, after, hbefore, hbody, hafter, rfl⟩
  exact ⟨before, body ++ after, hbefore, rfl, ⟨[], body, after, ws_nil, hbody, hafter, rfl⟩,
    (h hbody).append after⟩

theorem trims_member (P : List UInt8 → Prop) : Trims (IsMember P) := by
  rintro text ⟨key, value, hkey, hvalue, rfl⟩
  obtain ⟨before, rest, hbefore, rfl, hrest, hstarts⟩ :=
    trims_padded (P := IsString) (fun {text} ⟨chars, _, h⟩ =>
      ⟨0x22, chars ++ [0x22], h, by unfold IsSpace; decide, by decide⟩) hkey
  exact ⟨before, rest ++ 0x3A :: value, hbefore, List.append_assoc .., ⟨rest, value, hrest, hvalue,
    rfl⟩, hstarts.append _⟩

theorem trims_listed {Q : List UInt8 → Prop} (h : Trims Q) : Trims (Listed Q) := by
  intro text htext
  cases htext with
  | one hitem =>
      obtain ⟨before, rest, hbefore, rfl, hrest, hstarts⟩ := h hitem
      exact ⟨before, rest, hbefore, rfl, .one hrest, hstarts⟩
  | more hitem hlater =>
      obtain ⟨before, rest, hbefore, rfl, hrest, hstarts⟩ := h hitem
      exact ⟨before, _, hbefore, List.append_assoc .., .more hrest hlater, hstarts.append _⟩

/-- White space in front of a text belongs to it. -/
def Absorbs (Q : List UInt8 → Prop) : Prop :=
  ∀ {before text}, Ws before → Q text → Q (before ++ text)

theorem absorbs_padded (P : List UInt8 → Prop) : Absorbs (Padded P) := by
  rintro before text hbefore ⟨front, body, after, hfront, hbody, hafter, rfl⟩
  refine ⟨before ++ front, body, after, fun c hc => ?_, hbody, hafter, (List.append_assoc ..).symm⟩
  exact (List.mem_append.mp hc).elim (hbefore c) (hfront c)

theorem absorbs_member (P : List UInt8 → Prop) : Absorbs (IsMember P) := by
  rintro before text hbefore ⟨key, value, hkey, hvalue, rfl⟩
  exact ⟨before ++ key, value, absorbs_padded IsString hbefore hkey, hvalue,
    (List.append_assoc ..).symm⟩

theorem absorbs_listed {Q : List UInt8 → Prop} (h : Absorbs Q) : Absorbs (Listed Q) := by
  intro before text hbefore htext
  cases htext with
  | one hitem => exact .one (h hbefore hitem)
  | more hitem hlater =>
      rw [← List.append_assoc]
      exact .more (h hbefore hitem) hlater

end JsonGrammar
