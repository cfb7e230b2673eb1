import OmegaStick.Library.JsonText
import OmegaStick.Library.Unicode

/-!
# The simulator's JSON parser

`sim/src/json.cpp`: a recursive descent over a position in the text.  The position is
kept as the text that is left, and `parseValue` counts the levels that may still open
instead of the depth reached.  The loops take fuel; the text's length is enough for any
of them, because every round takes a byte.
-/

namespace OmegaStick

open DecimalText (isDigit)
open Utf16 (bytes)

namespace SimJson

abbrev Value (D : Type) := Json D (List UInt8)

variable {D : Type}

/-- `Value::set` on an object's members: a key that is there gets the new value. -/
def set (key : List UInt8) (value : Value D) :
    List (List UInt8 × Value D) → List (List UInt8 × Value D)
  | [] => [(key, value)]
  | m :: rest => if m.1 = key then (m.1, value) :: rest else m :: set key value rest

/-- `Value::string_or` -/
def stringOr (value : Value D) (key fallback : List UInt8) : List UInt8 :=
  match value.find key with
  | some (.string s) => s
  | _ => fallback

/-! ## The parser -/

def kMaxDepth : ℕ := 32

/-- The first message, and the text left where the parser stood. -/
structure Failure where
  message : String
  rest : List UInt8
  deriving DecidableEq, Repr

abbrev Parsed := Except Failure

def fail {α : Type} (message : String) (rest : List UInt8) : Parsed α :=
  .error ⟨message, rest⟩

def isSpace (c : UInt8) : Bool := c = 32 || c = 9 || c = 10 || c = 13

def skipWs (text : List UInt8) : List UInt8 := text.dropWhile isSpace

def consume (c : UInt8) : List UInt8 → Option (List UInt8)
  | [] => none
  | b :: rest => if b = c then some rest else none

def consumeWord (word : String) (text : List UInt8) : Option (List UInt8) :=
  if (bytes word).isPrefixOf text then some (text.drop (bytes word).length) else none

/-! ### Strings -/

def hexDigit (c : UInt8) : Option ℕ :=
  if isDigit c then some (c.toNat - 48)
  else if 97 ≤ c && c ≤ 102 then some (c.toNat - 97 + 10)
  else if 65 ≤ c && c ≤ 70 then some (c.toNat - 65 + 10)
  else none

/-- The digits of `parse_hex4`, `n` of them left. -/
def hexDigits : ℕ → ℕ → List UInt8 → Parsed (ℕ × List UInt8)
  | 0, v, text => .ok (v, text)
  | _ + 1, _, [] => fail "bad \\u escape" []
  | n + 1, v, c :: rest =>
      match hexDigit c with
      | some d => hexDigits n (v * 16 + d) rest
      | none => fail "bad \\u escape" rest

def parseHex4 (text : List UInt8) : Parsed (ℕ × List UInt8) :=
  if text.length < 4 then fail "bad \\u escape" text else hexDigits 4 0 text

def appendUtf8 (cp : ℕ) : List UInt8 :=
  if cp < 0x80 then [UInt8.ofNat cp]
  else if cp < 0x800 then [UInt8.ofNat (0xC0 ||| cp >>> 6), UInt8.ofNat (0x80 ||| cp &&& 0x3F)]
  else if cp < 0x10000 then
    [UInt8.ofNat (0xE0 ||| cp >>> 12), UInt8.ofNat (0x80 ||| (cp >>> 6) &&& 0x3F),
      UInt8.ofNat (0x80 ||| cp &&& 0x3F)]
  else
    [UInt8.ofNat (0xF0 ||| cp >>> 18), UInt8.ofNat (0x80 ||| (cp >>> 12) &&& 0x3F),
      UInt8.ofNat (0x80 ||| (cp >>> 6) &&& 0x3F), UInt8.ofNat (0x80 ||| cp &&& 0x3F)]

/-- The second half of a surrogate pair, after the first. -/
def parseLow (text : List UInt8) : Parsed (ℕ × List UInt8) :=
  match consume 92 text with
  | none => fail "bad surrogate pair" text
  | some text =>
      match consume 117 text with
      | none => fail "bad surrogate pair" text
      | some text => do
          let (low, text) ← parseHex4 text
          if low < 0xDC00 || 0xDFFF < low then fail "bad surrogate pair" text
          else .ok (low, text)

/-- The escape `\u`. -/
def parseUnicode (text : List UInt8) : Parsed (List UInt8 × List UInt8) := do
  let (cp, text) ← parseHex4 text
  if 0xD800 ≤ cp && cp ≤ 0xDBFF then
    let (low, text) ← parseLow text
    .ok (appendUtf8 (0x10000 + (cp - 0xD800) <<< 10 + (low - 0xDC00)), text)
  else if 0xDC00 ≤ cp && cp ≤ 0xDFFF then fail "lone surrogate" text
  else .ok (appendUtf8 cp, text)

/-- What stands behind a backslash. -/
def parseEscape : List UInt8 → Parsed (List UInt8 × List UInt8)
  | [] => fail "unterminated string" []
  | e :: text =>
      if e = 34 || e = 92 || e = 47 then .ok ([e], text)
      else if e = 98 then .ok ([8], text)
      else if e = 102 then .ok ([12], text)
      else if e = 110 then .ok ([10], text)
      else if e = 114 then .ok ([13], text)
      else if e = 116 then .ok ([9], text)
      else if e = 117 then parseUnicode text
      else fail "bad escape" text

/-- The loop of `parse_string`. -/
def stringLoop : ℕ → List UInt8 → List UInt8 → Parsed (List UInt8 × List UInt8)
  | 0, _, text => fail "unterminated string" text
  | _ + 1, _, [] => fail "unterminated string" []
  | fuel + 1, out, c :: text =>
      if c = 34 then .ok (out, text)
      else if c < 0x20 then fail "control character in string" text
      else if c ≠ 92 then stringLoop fuel (out ++ [c]) text
      else do
        let (added, text) ← parseEscape text
        stringLoop fuel (out ++ added) text

def parseString (text : List UInt8) : Parsed (List UInt8 × List UInt8) :=
  match consume 34 text with
  | none => fail "expected string" text
  | some text => stringLoop (text.length + 1) [] text

/-! ### Numbers -/

/-- One digit or more. -/
def takeDigits (text : List UInt8) : Parsed (List UInt8) :=
  if text.head?.any isDigit then .ok (text.dropWhile isDigit) else fail "bad number" text

/-- The digits before the point: `0`, or what does not start with it. -/
def takeWhole (text : List UInt8) : Parsed (List UInt8) :=
  match consume 48 text with
  | some text => .ok text
  | none => takeDigits text

def takeFraction (text : List UInt8) : Parsed (List UInt8) :=
  match consume 46 text with
  | some text => takeDigits text
  | none => .ok text

def takeExponent (text : List UInt8) : Parsed (List UInt8) :=
  match (consume 101 text).or (consume 69 text) with
  | some text => takeDigits (((consume 43 text).or (consume 45 text)).getD text)
  | none => .ok text

def parseNumber [DoubleText D] (text : List UInt8) : Parsed (Value D × List UInt8) := do
  let rest ← takeWhole ((consume 45 text).getD text)
  let rest ← takeFraction rest
  let rest ← takeExponent rest
  .ok (.number (DoubleText.strtod (text.take (text.length - rest.length))), rest)

/-! ### Arrays and objects -/

section Containers

variable (parseItem : List UInt8 → Parsed (Value D × List UInt8))

def arrayLoop : ℕ → List (Value D) → List UInt8 → Parsed (Value D × List UInt8)
  | 0, _, text => fail "expected , or ]" text
  | fuel + 1, items, text => do
      let (item, text) ← parseItem (skipWs text)
      let text := skipWs text
      match consume 44 text with
      | some text => arrayLoop fuel (items ++ [item]) text
      | none =>
          match consume 93 text with
          | some text => .ok (.array (items ++ [item]), text)
          | none => fail "expected , or ]" text

/-- `parse_array`, after the bracket. -/
def parseArray (text : List UInt8) : Parsed (Value D × List UInt8) :=
  let text := skipWs text
  match consume 93 text with
  | some text => .ok (.array [], text)
  | none => arrayLoop parseItem (text.length + 1) [] text

def objectLoop : ℕ → List (List UInt8 × Value D) → List UInt8 → Parsed (Value D × List UInt8)
  | 0, _, text => fail "expected , or \x7d" text
  | fuel + 1, members, text => do
      let (key, text) ← parseString (skipWs text)
      let text := skipWs text
      match consume 58 text with
      | none => fail "expected :" text
      | some text =>
          let (value, text) ← parseItem (skipWs text)
          let text := skipWs text
          match consume 44 text with
          | some text => objectLoop fuel (set key value members) text
          | none =>
              match consume 125 text with
              | some text => .ok (.object (set key value members), text)
              | none => fail "expected , or \x7d" text

/-- `parse_object`, after the brace. -/
def parseObject (text : List UInt8) : Parsed (Value D × List UInt8) :=
  let text := skipWs text
  match consume 125 text with
  | some text => .ok (.object [], text)
  | none => objectLoop parseItem (text.length + 1) [] text

end Containers

/-! ### Values -/

variable [DoubleText D]

/-- `true`, `false`, `null` or a number. -/
def parseScalar (c : UInt8) (text : List UInt8) : Parsed (Value D × List UInt8) :=
  match consumeWord "true" text with
  | some text => .ok (.bool true, text)
  | none =>
      match consumeWord "false" text with
      | some text => .ok (.bool false, text)
      | none =>
          match consumeWord "null" text with
          | some text => .ok (.null, text)
          | none =>
              if c = 45 || isDigit c then parseNumber text else fail "unexpected character" text

/-- `parse_value` where `levels` more levels may open. -/
def parseValue : ℕ → List UInt8 → Parsed (Value D × List UInt8)
  | 0, text => fail "nested too deeply" text
  | _ + 1, [] => fail "unexpected end of input" []
  | levels + 1, c :: text =>
      if c = 123 then parseObject (parseValue levels) text
      else if c = 91 then parseArray (parseValue levels) text
      else if c = 34 then do
        let (s, text) ← parseString (c :: text)
        .ok (.string s, text)
      else parseScalar c (c :: text)

/-- `Parser::run` -/
def run (text : List UInt8) : Parsed (Value D) := do
  let (value, rest) ← parseValue (kMaxDepth + 1) (skipWs text)
  let rest := skipWs rest
  if rest ≠ [] then fail "unexpected trailing characters" rest else .ok value

def parse (text : List UInt8) : Except String (Value D) :=
  match run text with
  | .ok value => .ok value
  | .error e => .error (e.message ++ " at byte " ++ toString (text.length - e.rest.length))

end SimJson

end OmegaStick
