import OmegaStick.Library.Stringify
import OmegaStick.Simulator.Json

/-!
# The strings `JSON.stringify` writes, read by the simulator

`parse_string` gives back the UTF-8 of a string (`parseString_quoteBytes`), unless one of
its surrogates is alone: that one is written as an escape, and no escape with its partner
follows, so that the parser refuses the text (`parseString_of_not_paired`).
-/

namespace OmegaStick

open Json (quoteBytes pointBytes JsString)
open Utf16

namespace SimJson

/-! ## Escapes -/

def hexByte (d : ℕ) : UInt8 := UInt8.ofNat (Json.hexChar d).toNat

theorem hexDigit_hexByte : ∀ d < 16, hexDigit (hexByte d) = some d := by decide

theorem utf8EncodeChar_hexChar :
    ∀ d < 16, String.utf8EncodeChar (Json.hexChar d) = [hexByte d] := by decide

theorem utf8_unicodeEscape (n : ℕ) : utf8 (Json.unicodeEscape n) =
    [92, 117, hexByte (n / 0x1000 % 0x10), hexByte (n / 0x100 % 0x10), hexByte (n / 0x10 % 0x10),
      hexByte (n % 0x10)] := by
  have hbegins : utf8 "\\u".toList = [92, 117] := by decide
  rw [Json.unicodeEscape, utf8_append, hbegins, utf8_cons, utf8_cons, utf8_cons, utf8_cons,
    utf8EncodeChar_hexChar _ (by omega), utf8EncodeChar_hexChar _ (by omega),
    utf8EncodeChar_hexChar _ (by omega), utf8EncodeChar_hexChar _ (by omega)]
  rfl

theorem parseHex4_hexBytes {n : ℕ} (h : n < 0x10000) (text : List UInt8) :
    parseHex4 (hexByte (n / 0x1000 % 0x10) :: hexByte (n / 0x100 % 0x10) ::
      hexByte (n / 0x10 % 0x10) :: hexByte (n % 0x10) :: text) = .ok (n, text) := by
  have hvalue : (((0 * 16 + n / 0x1000 % 0x10) * 16 + n / 0x100 % 0x10) * 16 +
      n / 0x10 % 0x10) * 16 + n % 0x10 = n := by omega
  rw [parseHex4, if_neg (by simp)]
  simp only [hexDigits, hexDigit_hexByte _ (Nat.mod_lt _ (by norm_num : 0 < 0x10))]
  rw [hvalue]

section Unicode

variable {hex text : List UInt8} {n : ℕ}

theorem parseUnicode_eq (h : parseHex4 hex = .ok (n, text)) :
    parseUnicode hex =
      if 0xD800 ≤ n && n ≤ 0xDBFF then do
        let (low, text) ← parseLow text
        .ok (appendUtf8 (0x10000 + (n - 0xD800) <<< 10 + (low - 0xDC00)), text)
      else if 0xDC00 ≤ n && n ≤ 0xDFFF then fail "lone surrogate" text
      else .ok (appendUtf8 n, text) := by
  rw [parseUnicode, h]
  rfl

theorem parseUnicode_of_lt (h : parseHex4 hex = .ok (n, text)) (hn : n < 0x20) :
    parseUnicode hex = .ok ([UInt8.ofNat n], text) := by
  have hutf8 : appendUtf8 n = [UInt8.ofNat n] := if_pos (by omega)
  rw [parseUnicode_eq h, if_neg, if_neg, hutf8] <;>
    · rw [Bool.and_eq_true, decide_eq_true_eq, decide_eq_true_eq]
      omega

theorem parseUnicode_of_trail (h : parseHex4 hex = .ok (n, text)) (hn : 0xDC00 ≤ n ∧ n ≤ 0xDFFF) :
    parseUnicode hex = fail "lone surrogate" text := by
  rw [parseUnicode_eq h, if_neg, if_pos] <;>
    · rw [Bool.and_eq_true, decide_eq_true_eq, decide_eq_true_eq]
      omega

theorem parseUnicode_of_lead (h : parseHex4 hex = .ok (n, text)) (hn : 0xD800 ≤ n ∧ n ≤ 0xDBFF)
    {e : Failure} (hlow : parseLow text = .error e) : parseUnicode hex = .error e := by
  rw [parseUnicode_eq h, if_pos, hlow]
  · rfl
  · rw [Bool.and_eq_true, decide_eq_true_eq, decide_eq_true_eq]
    exact hn

end Unicode

/-! ## One code point -/

/-- Bytes that a string holds as they are. -/
theorem stringLoop_append (raw : List UInt8) (h : ∀ c ∈ raw, 0x20 ≤ c ∧ c ≠ 34 ∧ c ≠ 92) (fuel : ℕ)
    (out text : List UInt8) :
    stringLoop (raw.length + fuel) out (raw ++ text) = stringLoop fuel (out ++ raw) text := by
  induction raw generalizing out with
  | nil => simp
  | cons c rest ih =>
      obtain ⟨⟨hspace, hquote, hslash⟩, hrest⟩ := List.forall_mem_cons.mp h
      have hlength : (c :: rest).length + fuel = rest.length + fuel + 1 := by
        rw [List.length_cons]
        omega
      rw [hlength, List.cons_append, stringLoop, if_neg hquote, if_neg (UInt8.not_lt.mpr hspace),
        if_pos hslash, ih hrest, List.append_assoc, List.singleton_append]

theorem stringLoop_escape {escape text added rest : List UInt8}
    (h : parseEscape (escape ++ text) = .ok (added, rest)) (fuel : ℕ) (out : List UInt8) :
    stringLoop (fuel + 1) out (92 :: escape ++ text) = stringLoop fuel (out ++ added) rest := by
  rw [List.cons_append, stringLoop, if_neg (by decide), if_neg (by decide),
    if_neg (by decide), h]
  rfl

theorem stringLoop_bad_escape {escape : List UInt8} {e : Failure}
    (h : parseEscape escape = .error e) (fuel : ℕ) (out : List UInt8) :
    stringLoop (fuel + 1) out (92 :: escape) = .error e := by
  rw [stringLoop, if_neg (by decide), if_neg (by decide), if_neg (by decide), h]
  rfl

/-- The text of a scalar value: an escape, or its own bytes. -/
theorem pointBytes_scalar (c : Char) :
    (∃ escape, pointBytes (.scalar c) = 92 :: escape ∧
        ∀ text, parseEscape (escape ++ text) = .ok (String.utf8EncodeChar c, text)) ∨
      pointBytes (.scalar c) = String.utf8EncodeChar c ∧
        ∀ b ∈ String.utf8EncodeChar c, 0x20 ≤ b ∧ b ≠ 34 ∧ b ≠ 92 := by
  -- the seven short escapes are bytes of one, and so is what they stand for
  have hshort {n : ℕ} (hn : c.toNat = n) (hlt : n < 0x80) :
      String.utf8EncodeChar c = [UInt8.ofNat n] := by
    rw [utf8EncodeChar_of_lt (by omega), hn]
  unfold pointBytes Json.quotePoint
  dsimp only
  by_cases h8 : c.toNat = 8
  · rw [if_pos h8, hshort h8 (by decide)]
    exact .inl ⟨[98], by decide, fun _ => rfl⟩
  rw [if_neg h8]
  by_cases h9 : c.toNat = 9
  · rw [if_pos h9, hshort h9 (by decide)]
    exact .inl ⟨[116], by decide, fun _ => rfl⟩
  rw [if_neg h9]
  by_cases h10 : c.toNat = 10
  · rw [if_pos h10, hshort h10 (by decide)]
    exact .inl ⟨[110], by decide, fun _ => rfl⟩
  rw [if_neg h10]
  by_cases h12 : c.toNat = 12
  · rw [if_pos h12, hshort h12 (by decide)]
    exact .inl ⟨[102], by decide, fun _ => rfl⟩
  rw [if_neg h12]
  by_cases h13 : c.toNat = 13
  · rw [if_pos h13, hshort h13 (by decide)]
    exact .inl ⟨[114], by decide, fun _ => rfl⟩
  rw [if_neg h13]
  by_cases h34 : c.toNat = 34
  · rw [if_pos h34, hshort h34 (by decide)]
    exact .inl ⟨[34], by decide, fun _ => rfl⟩
  rw [if_neg h34]
  by_cases h92 : c.toNat = 92
  · rw [if_pos h92, hshort h92 (by decide)]
    exact .inl ⟨[92], by decide, fun _ => rfl⟩
  rw [if_neg h92]
  -- the other control characters are written as four hex digits
  by_cases hcontrol : c.toNat < 0x20
  · rw [if_pos hcontrol]
    refine .inl ⟨_, utf8_unicodeEscape c.toNat, fun text => ?_⟩
    have hhex := parseHex4_hexBytes (n := c.toNat) (by omega) text
    rw [utf8EncodeChar_of_lt (by omega)]
    exact parseUnicode_of_lt hhex hcontrol
  · rw [if_neg hcontrol]
    refine .inr ⟨by rw [utf8_cons]; exact List.append_nil _, fun b hb => ?_⟩
    -- the rest stands for itself: an ASCII byte, or bytes above them all
    by_cases hascii : c.toNat < 0x80
    · rw [utf8EncodeChar_of_lt hascii, List.mem_singleton] at hb
      have hvalue : b.toNat = c.toNat := by
        rw [hb, UInt8.toNat_ofNat']
        omega
      refine ⟨?_, ?_, ?_⟩
      · rw [UInt8.le_iff_toNat_le, hvalue]
        exact not_lt.mp hcontrol
      · rintro rfl
        exact h34 hvalue.symm
      · rintro rfl
        exact h92 hvalue.symm
    · have hle := le_of_mem_utf8EncodeChar (not_lt.mp hascii) hb
      refine ⟨?_, ?_, ?_⟩
      · rw [UInt8.le_iff_toNat_le]
        exact le_trans (by decide) hle
      · rintro rfl
        exact absurd hle (by decide)
      · rintro rfl
        exact absurd hle (by decide)

/-- A scalar value goes to the string; some of the fuel is left. -/
theorem stringLoop_scalar (c : Char) (fuel : ℕ)
    (hfuel : (pointBytes (.scalar c)).length ≤ fuel) (out text : List UInt8) :
    ∃ left, fuel ≤ left + (pointBytes (.scalar c)).length ∧
      stringLoop fuel out (pointBytes (.scalar c) ++ text) =
        stringLoop left (out ++ String.utf8EncodeChar c) text := by
  rcases pointBytes_scalar c with ⟨escape, hescape, hparse⟩ | ⟨hraw, hplain⟩
  · rw [hescape, List.length_cons] at hfuel ⊢
    obtain ⟨left, rfl⟩ : ∃ left, fuel = left + 1 := ⟨fuel - 1, by omega⟩
    exact ⟨left, by omega, stringLoop_escape (hparse text) left out⟩
  · rw [hraw] at hfuel ⊢
    obtain ⟨left, rfl⟩ := Nat.exists_eq_add_of_le hfuel
    exact ⟨left, by omega, stringLoop_append _ hplain left out text⟩

/-- A lone surrogate that stands before no partner's escape is refused. -/
theorem stringLoop_surrogate {unit : UInt16} (hunit : isLead unit = true ∨ isTrail unit = true)
    {text : List UInt8} (hlow : isLead unit = true → ∃ e, parseLow text = .error e) (fuel : ℕ)
    (out : List UInt8) :
    ∃ e, stringLoop (fuel + 1) out (pointBytes (.surrogate unit) ++ text) = .error e := by
  have hhex := parseHex4_hexBytes (n := unit.toNat) unit.toNat_lt text
  have hbytes : pointBytes (.surrogate unit) = utf8 (Json.unicodeEscape unit.toNat) := rfl
  have hescape : ∃ e, parseUnicode (hexByte (unit.toNat / 0x1000 % 0x10) ::
      hexByte (unit.toNat / 0x100 % 0x10) :: hexByte (unit.toNat / 0x10 % 0x10) ::
      hexByte (unit.toNat % 0x10) :: text) = .error e := by
    rcases hunit with hlead | htrail
    · obtain ⟨e, he⟩ := hlow hlead
      exact ⟨e, parseUnicode_of_lead hhex (lead_bounds hlead) he⟩
    · exact ⟨_, parseUnicode_of_trail hhex (trail_bounds htrail)⟩
  obtain ⟨e, he⟩ := hescape
  rw [hbytes, utf8_unicodeEscape]
  exact ⟨e, stringLoop_bad_escape (by exact he) fuel out⟩

/-! ## A string -/

theorem stringLoop_of_scalars {points : List CodePoint}
    (h : ∀ point ∈ points, ∃ c, point = .scalar c) {fuel : ℕ}
    (hfuel : (points.flatMap pointBytes).length < fuel) (out text : List UInt8) :
    stringLoop fuel out (points.flatMap pointBytes ++ 34 :: text) =
      .ok (out ++ utf8 (points.map CodePoint.toChar), text) := by
  induction points generalizing fuel out with
  | nil =>
      obtain ⟨left, rfl⟩ : ∃ left, fuel = left + 1 := ⟨fuel - 1, by omega⟩
      rw [List.flatMap_nil, List.nil_append, List.map_nil, stringLoop, if_pos rfl]
      exact congrArg (fun out => Except.ok (out, text)) (List.append_nil out).symm
  | cons point rest ih =>
      obtain ⟨⟨c, rfl⟩, hrest⟩ := List.forall_mem_cons.mp h
      rw [List.flatMap_cons, List.length_append] at hfuel
      obtain ⟨left, hleft, hstep⟩ := stringLoop_scalar c fuel (by omega) out
        (rest.flatMap pointBytes ++ 34 :: text)
      rw [List.flatMap_cons, List.append_assoc, hstep, ih hrest (by omega), List.append_assoc]
      rfl

theorem parseString_quoteBytes {s : JsString} (h : Paired s) (text : List UInt8) :
    parseString (quoteBytes s ++ text) = .ok (encode s, text) := by
  rw [Json.quoteBytes_eq, List.cons_append, parseString, consume, if_pos rfl, List.append_assoc]
  dsimp only
  rw [List.singleton_append, stringLoop_of_scalars h (by simp)]
  rfl

/-! ## A string with a lone surrogate -/

theorem parseLow_of_head {text : List UInt8} (h : text.head? ≠ some 92) :
    ∃ e, parseLow text = .error e := by
  have hnone : consume 92 text = none := by
    cases text with
    | nil => rfl
    | cons c rest => exact if_neg fun hc => h (congrArg some hc)
  rw [parseLow, hnone]
  exact ⟨_, rfl⟩

/-- The escape of something else than a second half. -/
theorem parseLow_of_hex {hex : List UInt8}
    (h : ∀ n rest, parseHex4 hex = .ok (n, rest) → ¬ (0xDC00 ≤ n ∧ n ≤ 0xDFFF)) :
    ∃ e, parseLow (92 :: 117 :: hex) = .error e := by
  have hopen : parseLow (92 :: 117 :: hex) = (do
      let (low, text) ← parseHex4 hex
      if low < 0xDC00 || 0xDFFF < low then fail "bad surrogate pair" text
      else .ok (low, text)) := rfl
  rw [hopen]
  cases hhex : parseHex4 hex with
  | error e => exact ⟨e, rfl⟩
  | ok found =>
      obtain ⟨n, rest⟩ := found
      have hrange := h n rest hhex
      have hout : (decide (n < 0xDC00) || decide (0xDFFF < n)) = true := by
        rw [Bool.or_eq_true, decide_eq_true_eq, decide_eq_true_eq]
        omega
      exact ⟨⟨"bad surrogate pair", rest⟩, if_pos hout⟩

/-- What stands before no second half, in a string's text. -/
theorem parseLow_of_points {points : List CodePoint}
    (h : ∀ unit, points.head? = some (.surrogate unit) → isTrail unit = false)
    (text : List UInt8) : ∃ e, parseLow (points.flatMap pointBytes ++ 34 :: text) = .error e := by
  cases points with
  | nil => exact parseLow_of_head nofun
  | cons point rest =>
      rw [List.flatMap_cons, List.append_assoc]
      cases point with
      | scalar c =>
          rcases pointBytes_scalar c with ⟨escape, hescape, hparse⟩ | ⟨hraw, hplain⟩
          · rw [hescape]
            have hread := hparse (rest.flatMap pointBytes ++ 34 :: text)
            rw [List.cons_append]
            generalize escape ++ (rest.flatMap pointBytes ++ 34 :: text) = after at hread
            -- only the escape with digits is looked at
            by_cases hu : after.head? = some 117
            · obtain ⟨hex, rfl⟩ := List.head?_eq_some_iff.mp hu
              refine parseLow_of_hex fun n left hhex hn => ?_
              have hrefused := parseUnicode_of_trail hhex hn
              change parseUnicode hex = _ at hread
              rw [hrefused] at hread
              cases hread
            · have hnone : consume 117 after = none := by
                cases after with
                | nil => rfl
                | cons c rest => exact if_neg fun hc => hu (congrArg some hc)
              rw [parseLow, consume, if_pos rfl]
              dsimp only
              rw [hnone]
              exact ⟨_, rfl⟩
          · rw [hraw]
            refine parseLow_of_head fun hhead => ?_
            obtain ⟨b, bytes, hbytes⟩ := List.exists_cons_of_ne_nil
              (String.utf8EncodeChar_ne_nil (c := c))
            rw [hbytes] at hhead hplain
            exact (hplain b List.mem_cons_self).2.2 (Option.some.inj hhead)
      | surrogate unit =>
          have hbytes : pointBytes (.surrogate unit) = utf8 (Json.unicodeEscape unit.toNat) := rfl
          have htrail := h unit rfl
          rw [hbytes, utf8_unicodeEscape]
          refine parseLow_of_hex fun n left hhex hn => ?_
          have hvalue := parseHex4_hexBytes (n := unit.toNat) unit.toNat_lt
            (rest.flatMap pointBytes ++ 34 :: text)
          obtain rfl : unit.toNat = n := congrArg Prod.fst (Except.ok.inj (hvalue.symm.trans hhex))
          simp only [isTrail, UInt16.le_iff_toNat_le, UInt16.reduceToNat, Bool.and_eq_false_iff,
            decide_eq_false_iff_not] at htrail
          omega

theorem stringLoop_of_surrogate {points : List CodePoint}
    (hchain : points.IsChain fun p q => ¬ SplitPair p q)
    (hsurrogates : ∀ unit, .surrogate unit ∈ points → isLead unit = true ∨ isTrail unit = true)
    (h : ¬ ∀ point ∈ points, ∃ c, point = .scalar c) {fuel : ℕ}
    (hfuel : (points.flatMap pointBytes).length < fuel) (out text : List UInt8) :
    ∃ e, stringLoop fuel out (points.flatMap pointBytes ++ 34 :: text) = .error e := by
  induction points generalizing fuel out with
  | nil => exact absurd nofun h
  | cons point rest ih =>
      obtain ⟨hnext, hrest⟩ := List.isChain_cons.mp hchain
      rw [List.flatMap_cons, List.append_assoc]
      rw [List.flatMap_cons, List.length_append] at hfuel
      cases point with
      | scalar c =>
          obtain ⟨left, hleft, hstep⟩ := stringLoop_scalar c fuel (by omega) out
            (rest.flatMap pointBytes ++ 34 :: text)
          rw [hstep]
          refine ih hrest (fun unit hunit => hsurrogates unit (List.mem_cons_of_mem _ hunit)) ?_
            (by omega) _
          exact fun hall => h (List.forall_mem_cons.mpr ⟨⟨c, rfl⟩, hall⟩)
      | surrogate unit =>
          obtain ⟨left, rfl⟩ : ∃ left, fuel = left + 1 := ⟨fuel - 1, by omega⟩
          refine stringLoop_surrogate (hsurrogates unit List.mem_cons_self) (fun hlead => ?_) left
            out
          refine parseLow_of_points (fun trail htrail => ?_) text
          by_contra hnot
          exact hnext (.surrogate trail) htrail
            ⟨unit, trail, rfl, rfl, hlead, Bool.not_eq_false _ ▸ hnot⟩

theorem parseString_of_not_paired {s : JsString} (h : ¬ Paired s) (text : List UInt8) :
    ∃ e, parseString (quoteBytes s ++ text) = .error e := by
  rw [Json.quoteBytes_eq, List.cons_append, parseString, consume, if_pos rfl, List.append_assoc]
  dsimp only
  exact stringLoop_of_surrogate (isChain_codePoints s) (fun _ => isSurrogate_of_mem) h
    (by simp) [] text

end SimJson

end OmegaStick
