import OmegaStick.Library.JsonGrammar
import OmegaStick.Simulator.ReadBack

/-!
# The parser takes every text of the grammar, and no other

Each parsing function is held to its rule of the grammar in both directions: what it takes
is derived (`sound`), and what is derived is taken, whatever may follow (`complete`).  The
fuel of a loop is the length of the text, and every round takes a byte.
-/

namespace OmegaStick

open DecimalText (isDigit)
open JsonGrammar
open Utf16 (bytes)

namespace SimJson

variable {D : Type}

/-! ## White space -/

theorem isSpace_iff {c : UInt8} : isSpace c = true ↔ IsSpace c := by
  simp [isSpace, IsSpace, or_assoc]

/-- What is skipped is white space. -/
theorem exists_skipWs (text : List UInt8) : ∃ before, Ws before ∧ text = before ++ skipWs text :=
  ⟨text.takeWhile isSpace, fun _ hc => isSpace_iff.mp (List.mem_takeWhile_imp hc),
    List.takeWhile_append_dropWhile.symm⟩

theorem skipWs_append {before : List UInt8} (h : Ws before) (text : List UInt8) :
    skipWs (before ++ text) = skipWs text :=
  List.dropWhile_append_of_pos fun c hc => isSpace_iff.mpr (h c hc)

theorem skipWs_of_ws {text : List UInt8} (h : Ws text) : skipWs text = [] := by
  rw [← List.append_nil text, skipWs_append h]
  rfl

theorem skipWs_cons {c : UInt8} (h : ¬ IsSpace c) (text : List UInt8) :
    skipWs (c :: text) = c :: text :=
  List.dropWhile_cons_of_neg (mt isSpace_iff.mp h)

/-- Behind white space stands what may follow a value. -/
theorem ends_append {after text : List UInt8} (h : Ws after) (htext : Ends text) :
    Ends (after ++ text) := by
  refine head_append (P := fun c => isDigit c = false ∧ c ≠ 46 ∧ c ≠ 101 ∧ c ≠ 69)
    (fun c hc => ?_) htext
  rcases isSpace_of_mem_head h c hc with rfl | rfl | rfl | rfl <;> decide

theorem ends_nil : Ends [] := nofun

theorem consume_eq_some {c : UInt8} {text rest : List UInt8} (h : consume c text = some rest) :
    text = c :: rest := by
  cases text with
  | nil => cases h
  | cons b more =>
      rw [consume] at h
      split_ifs at h with hb
      rw [hb, Option.some.inj h]

/-- A step that was not refused, and what was made of it. -/
theorem exists_ok {α β : Type} {x : Parsed α} {f : α → Parsed β} {r : β}
    (h : x >>= f = .ok r) : ∃ a, x = .ok a ∧ f a = .ok r := by
  cases x with
  | error e => cases h
  | ok a => exact ⟨a, rfl, h⟩

/-! ## Strings -/

section Strings

theorem hexDigit_eq (c : UInt8) : hexDigit c = hexValue c := rfl

theorem hexDigits_sound {n v m : ℕ} {text rest : List UInt8}
    (h : hexDigits (n + 1) v text = .ok (m, rest)) :
    ∃ c more d, text = c :: more ∧ hexValue c = some d ∧
      hexDigits n (v * 16 + d) more = .ok (m, rest) := by
  cases text with
  | nil => cases h
  | cons c more =>
      rw [hexDigits] at h
      cases hd : hexDigit c with
      | none =>
          rw [hd] at h
          cases h
      | some d =>
          rw [hd] at h
          exact ⟨c, more, d, rfl, hd, h⟩

theorem parseHex4_sound {text rest : List UInt8} {n : ℕ} (h : parseHex4 text = .ok (n, rest)) :
    ∃ digits, Hex4 digits n ∧ text = digits ++ rest := by
  unfold parseHex4 at h
  split_ifs at h
  · cases h
  obtain ⟨a, more, i, rfl, ha, h⟩ := hexDigits_sound h
  obtain ⟨b, more, j, rfl, hb, h⟩ := hexDigits_sound h
  obtain ⟨c, more, k, rfl, hc, h⟩ := hexDigits_sound h
  obtain ⟨d, more, l, rfl, hd, h⟩ := hexDigits_sound h
  obtain ⟨rfl, rfl⟩ := Prod.mk.inj (Except.ok.inj h)
  refine ⟨[a, b, c, d], ?_, rfl⟩
  rw [Nat.zero_mul, Nat.zero_add]
  exact .digits ha hb hc hd

theorem parseHex4_complete {digits : List UInt8} {n : ℕ} (h : Hex4 digits n)
    (text : List UInt8) : parseHex4 (digits ++ text) = .ok (n, text) := by
  cases h with
  | @digits a b c d i j k l ha hb hc hd =>
      have hlength : ¬ ([a, b, c, d] ++ text).length < 4 := by simp
      rw [parseHex4, if_neg hlength]
      simp only [List.cons_append, List.nil_append, hexDigits, hexDigit_eq, ha, hb, hc, hd,
        Nat.zero_mul, Nat.zero_add]

theorem parseLow_sound {text rest : List UInt8} {n : ℕ} (h : parseLow text = .ok (n, rest)) :
    ∃ digits, Hex4 digits n ∧ IsTrail n ∧ text = 92 :: 117 :: (digits ++ rest) := by
  unfold parseLow at h
  cases hslash : consume 92 text with
  | none =>
      rw [hslash] at h
      cases h
  | some text' =>
      rw [hslash] at h
      dsimp only at h
      cases hu : consume 117 text' with
      | none =>
          rw [hu] at h
          cases h
      | some text'' =>
          rw [hu] at h
          obtain ⟨⟨m, left⟩, hhex, h⟩ := exists_ok h
          dsimp only at h
          split_ifs at h with hrange
          · cases h
          obtain ⟨rfl, rfl⟩ := Prod.mk.inj (Except.ok.inj h)
          obtain ⟨digits, hdigits, rfl⟩ := parseHex4_sound hhex
          refine ⟨digits, hdigits, ?_, ?_⟩
          · rw [Bool.or_eq_true, decide_eq_true_eq, decide_eq_true_eq] at hrange
            exact ⟨by omega, by omega⟩
          · rw [consume_eq_some hslash, consume_eq_some hu]

theorem parseLow_complete {digits : List UInt8} {n : ℕ} (h : Hex4 digits n) (hn : IsTrail n)
    (text : List UInt8) : parseLow (92 :: 117 :: (digits ++ text)) = .ok (n, text) := by
  have hrange : ¬ (decide (n < 0xDC00) || decide (0xDFFF < n)) = true := by
    rw [Bool.or_eq_true, decide_eq_true_eq, decide_eq_true_eq]
    exact not_or.mpr ⟨not_lt.mpr hn.1, not_lt.mpr hn.2⟩
  change (parseHex4 (digits ++ text) >>= _) = _
  rw [parseHex4_complete h]
  exact if_neg hrange

theorem isLead_iff {n : ℕ} : (decide (0xD800 ≤ n) && decide (n ≤ 0xDBFF)) = true ↔ IsLead n := by
  rw [Bool.and_eq_true, decide_eq_true_eq, decide_eq_true_eq]
  exact Iff.rfl

theorem isTrail_iff {n : ℕ} : (decide (0xDC00 ≤ n) && decide (n ≤ 0xDFFF)) = true ↔ IsTrail n := by
  rw [Bool.and_eq_true, decide_eq_true_eq, decide_eq_true_eq]
  exact Iff.rfl

/-- What stands behind `\u`: one unit, or two that make a character together. -/
theorem parseUnicode_sound {text added rest chars : List UInt8}
    (h : parseUnicode text = .ok (added, rest)) (hchars : Chars chars) :
    ∃ escape, text = escape ++ rest ∧ Chars (92 :: 117 :: (escape ++ chars)) := by
  obtain ⟨⟨n, left⟩, hhex, hunit⟩ := exists_ok h
  obtain ⟨digits, hdigits, rfl⟩ := parseHex4_sound hhex
  dsimp only at hunit
  by_cases hlead : IsLead n
  · -- the first half of a pair, so that the second has to follow
    rw [if_pos (isLead_iff.mpr hlead)] at hunit
    obtain ⟨⟨m, left'⟩, hlow, hjoined⟩ := exists_ok hunit
    obtain ⟨trail, htrail, hm, rfl⟩ := parseLow_sound hlow
    obtain ⟨-, rfl⟩ := Prod.mk.inj (Except.ok.inj hjoined)
    have hpair := Chars.pair hdigits hlead htrail hm hchars
    exact ⟨digits ++ 92 :: 117 :: trail, by simp, by simpa using hpair⟩
  rw [if_neg (mt isLead_iff.mp hlead)] at hunit
  by_cases htrail : IsTrail n
  · -- a second half alone is refused
    rw [if_pos (isTrail_iff.mpr htrail)] at hunit
    cases hunit
  · rw [if_neg (mt isTrail_iff.mp htrail)] at hunit
    obtain ⟨-, rfl⟩ := Prod.mk.inj (Except.ok.inj hunit)
    exact ⟨digits, rfl, Chars.unicode hdigits hlead htrail hchars⟩

/-- An escape, and what its rule is. -/
theorem parseEscape_sound {text added rest : List UInt8} (h : parseEscape text = .ok (added, rest))
    {chars : List UInt8} (hchars : Chars chars) :
    ∃ escape, text = escape ++ rest ∧ Chars (92 :: (escape ++ chars)) := by
  cases text with
  | nil => cases h
  | cons e text =>
      by_cases hu : e = 117
      · subst hu
        have hunicode : parseUnicode text = .ok (added, rest) := h
        obtain ⟨escape, rfl, hall⟩ := parseUnicode_sound hunicode hchars
        exact ⟨117 :: escape, rfl, hall⟩
      · rw [parseEscape] at h
        -- one byte, from the list of those that stand behind a backslash
        have hshort : e ∈ ([0x22, 0x5C, 0x2F, 0x62, 0x66, 0x6E, 0x72, 0x74] : List UInt8) ∧
            text = rest := by
          simp only [List.mem_cons, List.not_mem_nil, or_false]
          split_ifs at h with hself hb hf hn hr ht
          · obtain ⟨-, rfl⟩ := Prod.mk.inj (Except.ok.inj h)
            simp only [Bool.or_eq_true, decide_eq_true_eq] at hself
            exact ⟨by tauto, rfl⟩
          · obtain ⟨-, rfl⟩ := Prod.mk.inj (Except.ok.inj h)
            exact ⟨by simp [hb], rfl⟩
          · obtain ⟨-, rfl⟩ := Prod.mk.inj (Except.ok.inj h)
            exact ⟨by simp [hf], rfl⟩
          · obtain ⟨-, rfl⟩ := Prod.mk.inj (Except.ok.inj h)
            exact ⟨by simp [hn], rfl⟩
          · obtain ⟨-, rfl⟩ := Prod.mk.inj (Except.ok.inj h)
            exact ⟨by simp [hr], rfl⟩
          · obtain ⟨-, rfl⟩ := Prod.mk.inj (Except.ok.inj h)
            exact ⟨by simp [ht], rfl⟩
          · cases h
        obtain ⟨he, rfl⟩ := hshort
        exact ⟨[e], rfl, Chars.escape he hchars⟩

theorem stringLoop_sound {fuel : ℕ} {out text s rest : List UInt8}
    (h : stringLoop fuel out text = .ok (s, rest)) :
    ∃ chars, Chars chars ∧ text = chars ++ 34 :: rest := by
  induction fuel generalizing out text with
  | zero => cases h
  | succ fuel ih =>
      cases text with
      | nil => cases h
      | cons c text =>
          rw [stringLoop] at h
          by_cases hquote : c = 34
          · rw [if_pos hquote] at h
            obtain ⟨-, rfl⟩ := Prod.mk.inj (Except.ok.inj h)
            exact ⟨[], .nil, by rw [hquote]; rfl⟩
          rw [if_neg hquote] at h
          by_cases hcontrol : c < 0x20
          · rw [if_pos hcontrol] at h
            cases h
          rw [if_neg hcontrol] at h
          by_cases hslash : c = 92
          · rw [if_neg (not_not.mpr hslash)] at h
            obtain ⟨⟨added, left⟩, hescape, h⟩ := exists_ok h
            obtain ⟨chars, hchars, rfl⟩ := ih h
            obtain ⟨escape, rfl, hall⟩ := parseEscape_sound hescape hchars
            refine ⟨92 :: (escape ++ chars), hall, ?_⟩
            rw [hslash, List.cons_append, List.append_assoc]
          · rw [if_pos hslash] at h
            obtain ⟨chars, hchars, rfl⟩ := ih h
            exact ⟨c :: chars, .raw (UInt8.not_lt.mp hcontrol) hquote hslash hchars, rfl⟩

theorem parseString_sound {text s rest : List UInt8} (h : parseString text = .ok (s, rest)) :
    ∃ body, IsString body ∧ text = body ++ rest := by
  unfold parseString at h
  cases hquote : consume 34 text with
  | none =>
      rw [hquote] at h
      cases h
  | some text' =>
      rw [hquote] at h
      obtain ⟨chars, hchars, rfl⟩ := stringLoop_sound h
      refine ⟨34 :: (chars ++ [34]), ⟨chars, hchars, rfl⟩, ?_⟩
      rw [consume_eq_some hquote]
      simp

/-- An escape of the grammar is taken, and some of the fuel is left. -/
theorem stringLoop_of_escape {escape text added rest : List UInt8}
    (h : parseEscape (escape ++ text) = .ok (added, rest)) {fuel : ℕ} (hfuel : 0 < fuel)
    (out : List UInt8) :
    stringLoop fuel out (92 :: (escape ++ text)) = stringLoop (fuel - 1) (out ++ added) rest := by
  obtain ⟨left, rfl⟩ : ∃ left, fuel = left + 1 := ⟨fuel - 1, by omega⟩
  rw [stringLoop, if_neg (by decide), if_neg (by decide), if_neg (by decide), h]
  rfl

/-- What a string of the grammar is read as does not depend on what follows it. -/
theorem stringLoop_complete {chars : List UInt8} (h : Chars chars) (out : List UInt8) :
    ∃ s, ∀ fuel, chars.length < fuel → ∀ text,
      stringLoop fuel out (chars ++ 34 :: text) = .ok (s, text) := by
  induction h generalizing out with
  | nil =>
      refine ⟨out, fun fuel hfuel text => ?_⟩
      obtain ⟨left, rfl⟩ : ∃ left, fuel = left + 1 := ⟨fuel - 1, by omega⟩
      exact if_pos rfl
  -- a byte that stands for itself
  | @raw c rest hspace hquote hslash _ ih =>
      obtain ⟨s, hs⟩ := ih (out ++ [c])
      refine ⟨s, fun fuel hfuel text => ?_⟩
      rw [List.length_cons] at hfuel
      obtain ⟨left, rfl⟩ : ∃ left, fuel = left + 1 := ⟨fuel - 1, by omega⟩
      rw [List.cons_append, stringLoop, if_neg hquote, if_neg (UInt8.not_lt.mpr hspace),
        if_pos hslash]
      exact hs left (by omega) text
  -- what an escape adds does not depend on what follows it
  | @escape e rest he _ ih =>
      have hread : ∃ added, ∀ text, parseEscape ([e] ++ text) = .ok (added, text) := by
        simp only [List.mem_cons, List.not_mem_nil, or_false] at he
        rcases he with rfl | rfl | rfl | rfl | rfl | rfl | rfl | rfl <;> exact ⟨_, fun _ => rfl⟩
      obtain ⟨added, hread⟩ := hread
      obtain ⟨s, hs⟩ := ih (out ++ added)
      refine ⟨s, fun fuel hfuel text => ?_⟩
      rw [List.length_cons, List.length_cons] at hfuel
      exact (stringLoop_of_escape (hread _) (by omega) out).trans (hs _ (by omega) text)
  -- one unit that is no half of a pair
  | @unicode digits rest n hdigits hlead htrail _ ih =>
      have hread (text : List UInt8) : parseEscape (117 :: digits ++ text) =
          .ok (appendUtf8 n, text) := by
        change parseUnicode (digits ++ text) = _
        rw [parseUnicode, parseHex4_complete hdigits]
        change (if _ then _ else _) = _
        rw [if_neg (mt isLead_iff.mp hlead), if_neg (mt isTrail_iff.mp htrail)]
      obtain ⟨s, hs⟩ := ih (out ++ appendUtf8 n)
      refine ⟨s, fun fuel hfuel text => ?_⟩
      rw [List.length_cons, List.length_cons, List.length_append] at hfuel
      have hopen := stringLoop_of_escape (hread (rest ++ 34 :: text)) (by omega : 0 < fuel) out
      refine Eq.trans ?_ (hopen.trans (hs _ (by omega) text))
      simp
  -- two halves, read as one character
  | @pair lead trail rest n m hlead hn htrail hm _ ih =>
      have hread (text : List UInt8) :
          parseEscape (117 :: (lead ++ 92 :: 117 :: trail) ++ text) =
          .ok (appendUtf8 (0x10000 + (n - 0xD800) <<< 10 + (m - 0xDC00)), text) := by
        have hopen : 117 :: (lead ++ 92 :: 117 :: trail) ++ text =
            117 :: (lead ++ (92 :: 117 :: (trail ++ text))) := by simp
        rw [hopen]
        change parseUnicode (lead ++ _) = _
        rw [parseUnicode, parseHex4_complete hlead]
        change (if _ then _ else _) = _
        rw [if_pos (isLead_iff.mpr hn), parseLow_complete htrail hm]
        rfl
      obtain ⟨s, hs⟩ := ih (out ++ appendUtf8 (0x10000 + (n - 0xD800) <<< 10 + (m - 0xDC00)))
      refine ⟨s, fun fuel hfuel text => ?_⟩
      simp only [List.length_cons, List.length_append] at hfuel
      have hopen := stringLoop_of_escape (hread (rest ++ 34 :: text)) (by omega : 0 < fuel) out
      refine Eq.trans ?_ (hopen.trans (hs _ (by omega) text))
      simp

theorem exists_key {body : List UInt8} (h : IsString body) :
    ∃ s, ∀ text, parseString (body ++ text) = .ok (s, text) := by
  obtain ⟨chars, hchars, rfl⟩ := h
  obtain ⟨s, hs⟩ := stringLoop_complete hchars []
  refine ⟨s, fun text => ?_⟩
  rw [List.cons_append, List.append_assoc, parseString, consume_cons]
  exact hs _ (by rw [List.length_append]; omega) text

end Strings

/-! ## Numbers -/

section Numbers

/-- Digits that are taken up to the first byte that is none. -/
theorem takeDigits_sound {text rest : List UInt8} (h : takeDigits text = .ok rest) :
    ∃ digits, digits ≠ [] ∧ (∀ c ∈ digits, isDigit c = true) ∧ text = digits ++ rest := by
  unfold takeDigits at h
  split_ifs at h with hhead
  · obtain rfl := Except.ok.inj h
    refine ⟨text.takeWhile isDigit, ?_, fun _ hc => List.mem_takeWhile_imp hc,
      List.takeWhile_append_dropWhile.symm⟩
    cases text with
    | nil => cases hhead
    | cons c more =>
        have hc : isDigit c = true := hhead
        rw [List.takeWhile_cons_of_pos hc]
        exact List.cons_ne_nil _ _
  · cases h

theorem takeWhole_sound {text rest : List UInt8} (h : takeWhole text = .ok rest) :
    ∃ whole, (whole = [48] ∨ ∃ d more, whole = d :: more ∧ d ≠ 48) ∧
      (∀ c ∈ whole, isDigit c = true) ∧ text = whole ++ rest := by
  unfold takeWhole at h
  cases hzero : consume 48 text with
  | some text' =>
      rw [hzero] at h
      obtain rfl := Except.ok.inj h
      refine ⟨[48], .inl rfl, fun c hc => ?_, consume_eq_some hzero⟩
      rw [List.mem_singleton.mp hc]
      rfl
  | none =>
      rw [hzero] at h
      obtain ⟨digits, hne, hdigits, rfl⟩ := takeDigits_sound h
      obtain ⟨d, more, rfl⟩ := List.exists_cons_of_ne_nil hne
      refine ⟨d :: more, .inr ⟨d, more, rfl, ?_⟩, hdigits, rfl⟩
      rintro rfl
      rw [List.cons_append, consume_cons] at hzero
      cases hzero

theorem takeFraction_sound {text rest : List UInt8} (h : takeFraction text = .ok rest) :
    ∃ fraction, (∀ c ∈ fraction, isDigit c = true) ∧
      text = (if fraction.isEmpty then [] else 46 :: fraction) ++ rest := by
  unfold takeFraction at h
  cases hpoint : consume 46 text with
  | none =>
      rw [hpoint] at h
      obtain rfl := Except.ok.inj h
      exact ⟨[], fun c hc => absurd hc List.not_mem_nil, rfl⟩
  | some text' =>
      rw [hpoint] at h
      obtain ⟨digits, hne, hdigits, rfl⟩ := takeDigits_sound h
      refine ⟨digits, hdigits, ?_⟩
      rw [consume_eq_some hpoint, if_neg (by simpa using hne)]
      rfl

theorem takeExponent_sound {text rest : List UInt8} (h : takeExponent text = .ok rest) :
    ∃ exponent : Option Json.ExponentPart,
      text = exponent.elim [] Json.ExponentPart.text ++ rest := by
  unfold takeExponent at h
  cases hmark : (consume 101 text).or (consume 69 text) with
  | none =>
      rw [hmark] at h
      obtain rfl := Except.ok.inj h
      exact ⟨none, rfl⟩
  | some text' =>
      rw [hmark] at h
      obtain ⟨mark, hform, rfl⟩ : ∃ mark, (mark = 101 ∨ mark = 69) ∧ text = mark :: text' := by
        rcases Option.or_eq_some_iff.mp hmark with he | ⟨-, he⟩
        · exact ⟨101, .inl rfl, consume_eq_some he⟩
        · exact ⟨69, .inr rfl, consume_eq_some he⟩
      obtain ⟨digits, hne, hdigits, htext⟩ := takeDigits_sound h
      obtain ⟨sign, hsign, rfl⟩ : ∃ sign, (sign = [] ∨ sign = [43] ∨ sign = [45]) ∧
          text' = sign ++ (digits ++ rest) := by
        cases hsign : (consume 43 text').or (consume 45 text') with
        | none =>
            rw [hsign, Option.getD_none] at htext
            exact ⟨[], .inl rfl, htext⟩
        | some text'' =>
            rw [hsign, Option.getD_some] at htext
            subst htext
            rcases Option.or_eq_some_iff.mp hsign with he | ⟨-, he⟩
            · exact ⟨[43], .inr (.inl rfl), consume_eq_some he⟩
            · exact ⟨[45], .inr (.inr rfl), consume_eq_some he⟩
      refine ⟨some ⟨mark, sign, digits, hform, hsign, hne, hdigits⟩, ?_⟩
      simp [Json.ExponentPart.text]

variable [DoubleText D]

theorem parseNumber_sound {text rest : List UInt8} {v : Value D}
    (h : parseNumber text = .ok (v, rest)) : ∃ body, IsNumber body ∧ text = body ++ rest := by
  obtain ⟨text₁, hwhole, h⟩ := exists_ok h
  obtain ⟨text₂, hfraction, h⟩ := exists_ok h
  obtain ⟨text₃, hexponent, h⟩ := exists_ok h
  obtain ⟨-, rfl⟩ := Prod.mk.inj (Except.ok.inj h)
  obtain ⟨whole, hform, hdigits, hopen⟩ := takeWhole_sound hwhole
  obtain ⟨fraction, hfractions, rfl⟩ := takeFraction_sound hfraction
  obtain ⟨exponent, rfl⟩ := takeExponent_sound hexponent
  have hnumber (negative : Bool) :
      IsNumber (Json.Numeral.text ⟨negative, whole, fraction, exponent, hform, hdigits,
        hfractions⟩) := ⟨_, rfl⟩
  cases hsign : consume 45 text with
  | none =>
      rw [hsign, Option.getD_none] at hopen
      refine ⟨_, hnumber false, ?_⟩
      rw [hopen]
      simp [Json.Numeral.text, Json.Numeral.sign, Json.Numeral.pointText,
        Json.Numeral.exponentText]
  | some text' =>
      rw [hsign, Option.getD_some] at hopen
      refine ⟨_, hnumber true, ?_⟩
      rw [consume_eq_some hsign, hopen]
      simp [Json.Numeral.text, Json.Numeral.sign, Json.Numeral.pointText,
        Json.Numeral.exponentText]

end Numbers

/-! ## Containers -/

/-- The text is read as a value, whatever may follow it. -/
def ReadsAs (parseItem : List UInt8 → Parsed (Value D × List UInt8)) (text : List UInt8)
    (value : Value D) : Prop :=
  ∀ after, Ends after → parseItem (text ++ after) = .ok (value, after)

/-- The text is one of a rule, and the function takes it. -/
structure Takes (parseItem : List UInt8 → Parsed (Value D × List UInt8))
    (P : List UInt8 → Prop) : Prop where
  sound : ∀ {text rest value}, parseItem text = .ok (value, rest) →
    ∃ body, P body ∧ text = body ++ rest
  complete : ∀ {text}, P text → ∃ value, ReadsAs parseItem text value
  starts : ∀ {text}, P text → Starts text

section Containers

variable {parseItem : List UInt8 → Parsed (Value D × List UInt8)} {P : List UInt8 → Prop}

theorem ends_cons {c : UInt8} (h : c = 44 ∨ c = 93 ∨ c = 125) (text : List UInt8) :
    Ends (c :: text) := by
  intro b hb
  obtain rfl := Option.some.inj hb
  rcases h with rfl | rfl | rfl <;> decide

theorem not_isSpace_of_mark {c : UInt8} (h : c = 34 ∨ c = 44 ∨ c = 58 ∨ c = 93 ∨ c = 125) :
    ¬ IsSpace c := by
  unfold IsSpace
  rcases h with rfl | rfl | rfl | rfl | rfl <;> decide

/-- Behind an item stands a comma, or what closes the list. -/
theorem mark_cases {close : UInt8} {again : List UInt8 → Parsed (Value D × List UInt8)}
    {last value : Value D} {left rest : List UInt8} {message : String}
    (h : (match consume 44 left with
      | some text => again text
      | none =>
          match consume close left with
          | some text => .ok (last, text)
          | none => fail message left) = .ok (value, rest)) :
    (∃ later, left = 44 :: later ∧ again later = .ok (value, rest)) ∨ left = close :: rest := by
  cases hcomma : consume 44 left with
  | some later =>
      rw [hcomma] at h
      exact .inl ⟨later, consume_eq_some hcomma, h⟩
  | none =>
      rw [hcomma] at h
      dsimp only at h
      cases hclose : consume close left with
      | some later =>
          rw [hclose] at h
          obtain ⟨-, rfl⟩ := Prod.mk.inj (Except.ok.inj h)
          exact .inr (consume_eq_some hclose)
      | none =>
          rw [hclose] at h
          cases h

/-! ### Arrays -/

/-- One round of the loop, up to the comma or the bracket. -/
theorem arrayLoop_round {before body after : List UInt8} {value : Value D} (hbefore : Ws before)
    (hafter : Ws after) (hread : ReadsAs parseItem body value)
    (hstarts : Starts body) {mark : UInt8}
    (hmark : mark = 44 ∨ mark = 93) (fuel : ℕ) (items : List (Value D)) (text : List UInt8) :
    arrayLoop parseItem (fuel + 1) items (before ++ (body ++ (after ++ mark :: text))) =
      if mark = 44 then arrayLoop parseItem fuel (items ++ [value]) text
      else .ok (.array (items ++ [value]), text) := by
  have hmarks : mark = 44 ∨ mark = 93 ∨ mark = 125 := by
    rcases hmark with h | h
    · exact .inl h
    · exact .inr (.inl h)
  have hends := ends_append hafter (ends_cons hmarks text)
  have hskip : skipWs (after ++ mark :: text) = mark :: text := by
    rw [skipWs_append hafter, skipWs_cons (not_isSpace_of_mark (by tauto))]
  obtain ⟨c, more, hbody, hc, -⟩ := hstarts
  have hfirst : skipWs (before ++ (body ++ (after ++ mark :: text))) =
      body ++ (after ++ mark :: text) := by
    rw [skipWs_append hbefore, hbody]
    exact skipWs_cons hc _
  rw [arrayLoop, hfirst, hread _ hends]
  simp only [bind, Except.bind, hskip]
  rcases hmark with rfl | rfl
  · rw [consume_cons]
    rfl
  · rw [consume_cons]
    rfl

theorem arrayLoop_complete (hP : Takes parseItem P) {inner : List UInt8}
    (h : Listed (Padded P) inner) (items : List (Value D)) :
    ∃ value, ∀ fuel, inner.length < fuel → ∀ text,
      arrayLoop parseItem fuel items (inner ++ 93 :: text) = .ok (value, text) := by
  induction h generalizing items with
  -- the fuel is more than the length, so that a round is left for each item
  | one hitem =>
      obtain ⟨before, body, after, hbefore, hbody, hafter, rfl⟩ := hitem
      obtain ⟨value, hread⟩ := hP.complete hbody
      refine ⟨.array (items ++ [value]), fun fuel hfuel text => ?_⟩
      obtain ⟨left, rfl⟩ : ∃ left, fuel = left + 1 := ⟨fuel - 1, by omega⟩
      rw [List.append_assoc, List.append_assoc,
        arrayLoop_round hbefore hafter hread (hP.starts hbody) (.inr rfl)]
      rfl
  | more hitem _ ih =>
      obtain ⟨before, body, after, hbefore, hbody, hafter, rfl⟩ := hitem
      obtain ⟨value, hread⟩ := hP.complete hbody
      obtain ⟨array, harray⟩ := ih (items ++ [value])
      refine ⟨array, fun fuel hfuel text => ?_⟩
      simp only [List.length_append, List.length_cons] at hfuel
      obtain ⟨left, rfl⟩ : ∃ left, fuel = left + 1 := ⟨fuel - 1, by omega⟩
      refine Eq.trans ?_ (harray left (by omega) text)
      rw [List.append_assoc, List.append_assoc, List.append_assoc, List.cons_append,
        arrayLoop_round hbefore hafter hread (hP.starts hbody) (.inl rfl)]
      rfl

theorem parseArray_complete (hP : Takes parseItem P) {inner : List UInt8}
    (h : Ws inner ∨ Listed (Padded P) inner) :
    ∃ value, ∀ text, parseArray parseItem (inner ++ 93 :: text) = .ok (value, text) := by
  rcases h with hws | hlist
  · refine ⟨.array [], fun text => ?_⟩
    have hskip : skipWs (inner ++ 93 :: text) = 93 :: text := by
      rw [skipWs_append hws, skipWs_cons (not_isSpace_of_mark (by tauto))]
    rw [parseArray, hskip, consume_cons]
  -- the white space in front belongs to the first item
  · obtain ⟨before, rest, hbefore, rfl, hrest, c, more, rfl, hc, hne, -⟩ :=
      trims_listed (trims_padded hP.starts) hlist
    obtain ⟨value, hvalue⟩ := arrayLoop_complete hP hrest []
    refine ⟨value, fun text => ?_⟩
    have hskip : skipWs (before ++ c :: more ++ 93 :: text) = c :: more ++ 93 :: text := by
      rw [List.append_assoc, skipWs_append hbefore]
      exact skipWs_cons hc _
    have hopen : consume 93 (c :: more ++ 93 :: text) = none := if_neg hne
    rw [parseArray, hskip, hopen]
    exact hvalue _ (by rw [List.length_append]; omega) text

/-- A round that was not refused: an item, and the next round or the bracket. -/
theorem arrayLoop_cases (hP : Takes parseItem P) {fuel : ℕ} {items : List (Value D)}
    {text rest : List UInt8} {value : Value D}
    (h : arrayLoop parseItem (fuel + 1) items text = .ok (value, rest)) :
    ∃ item, Padded P item ∧
      ((∃ items' later, text = item ++ 44 :: later ∧
          arrayLoop parseItem fuel items' later = .ok (value, rest)) ∨
        text = item ++ 93 :: rest) := by
  obtain ⟨before, hbefore, htext⟩ := exists_skipWs text
  rw [arrayLoop] at h
  obtain ⟨⟨item, left⟩, hitem, h⟩ := exists_ok h
  obtain ⟨body, hbody, hleft⟩ := hP.sound hitem
  obtain ⟨after, hafter, hskip⟩ := exists_skipWs left
  have hpadded : text = before ++ (body ++ after) ++ skipWs left := by
    calc text = before ++ skipWs text := htext
      _ = before ++ (body ++ left) := by rw [hleft]
      _ = before ++ (body ++ (after ++ skipWs left)) :=
        congrArg (fun t => before ++ (body ++ t)) hskip
      _ = before ++ (body ++ after) ++ skipWs left := by simp
  refine ⟨before ++ (body ++ after), ⟨before, body, after, hbefore, hbody, hafter, rfl⟩, ?_⟩
  rcases mark_cases h with ⟨later, hcomma, hlater⟩ | hclose
  · exact .inl ⟨_, later, hpadded.trans (by rw [hcomma]), hlater⟩
  · exact .inr (hpadded.trans (by rw [hclose]))

theorem arrayLoop_sound (hP : Takes parseItem P) {fuel : ℕ} {items : List (Value D)}
    {text rest : List UInt8} {value : Value D}
    (h : arrayLoop parseItem fuel items text = .ok (value, rest)) :
    ∃ inner, Listed (Padded P) inner ∧ text = inner ++ 93 :: rest := by
  induction fuel generalizing items text with
  | zero => cases h
  | succ fuel ih =>
      obtain ⟨item, hitem, ⟨items', later, rfl, hlater⟩ | rfl⟩ := arrayLoop_cases hP h
      · obtain ⟨inner, hinner, rfl⟩ := ih hlater
        exact ⟨item ++ 44 :: inner, .more hitem hinner, by simp⟩
      · exact ⟨item, .one hitem, rfl⟩

theorem parseArray_sound (hP : Takes parseItem P) {text rest : List UInt8} {value : Value D}
    (h : parseArray parseItem text = .ok (value, rest)) :
    ∃ inner, (Ws inner ∨ Listed (Padded P) inner) ∧ text = inner ++ 93 :: rest := by
  obtain ⟨before, hbefore, htext⟩ := exists_skipWs text
  unfold parseArray at h
  dsimp only at h
  cases hclose : consume 93 (skipWs text) with
  | some text' =>
      rw [hclose] at h
      obtain ⟨-, rfl⟩ := Prod.mk.inj (Except.ok.inj h)
      refine ⟨before, .inl hbefore, ?_⟩
      rw [htext, consume_eq_some hclose]
  | none =>
      rw [hclose] at h
      obtain ⟨inner, hinner, hskip⟩ := arrayLoop_sound hP h
      refine ⟨before ++ inner, .inr ?_, ?_⟩
      · exact absorbs_listed (absorbs_padded P) hbefore hinner
      · rw [htext, hskip, List.append_assoc]

/-! ### Objects -/

theorem starts_string {body : List UInt8} (h : IsString body) : Starts body := by
  obtain ⟨chars, -, rfl⟩ := h
  exact ⟨34, chars ++ [34], rfl, not_isSpace_of_mark (.inl rfl), by decide⟩

/-- One round of the loop, up to the comma or the brace. -/
theorem objectLoop_round {front keyText back before body after key : List UInt8} {value : Value D}
    (hfront : Ws front) (hback : Ws back) (hkeyStarts : Starts keyText)
    (hkey : ∀ text, parseString (keyText ++ text) = .ok (key, text)) (hbefore : Ws before)
    (hafter : Ws after) (hread : ReadsAs parseItem body value) (hstarts : Starts body)
    {mark : UInt8} (hmark : mark = 44 ∨ mark = 125) (fuel : ℕ)
    (members : List (List UInt8 × Value D)) (text : List UInt8) :
    objectLoop parseItem (fuel + 1) members
        (front ++ (keyText ++ (back ++ 58 :: (before ++ (body ++ (after ++ mark :: text)))))) =
      if mark = 44 then objectLoop parseItem fuel (set key value members) text
      else .ok (.object (set key value members), text) := by
  have hmarks : mark = 44 ∨ mark = 93 ∨ mark = 125 := by
    rcases hmark with h | h
    · exact .inl h
    · exact .inr (.inr h)
  have hends := ends_append hafter (ends_cons hmarks text)
  have hskip : skipWs (after ++ mark :: text) = mark :: text := by
    rw [skipWs_append hafter, skipWs_cons (not_isSpace_of_mark (by tauto))]
  obtain ⟨c, more, rfl, hc, -⟩ := hstarts
  have hvalue : skipWs (before ++ (c :: more ++ (after ++ mark :: text))) =
      c :: more ++ (after ++ mark :: text) := by
    rw [skipWs_append hbefore]
    exact skipWs_cons hc _
  have hcolon (t : List UInt8) : skipWs (back ++ 58 :: t) = 58 :: t := by
    rw [skipWs_append hback, skipWs_cons (not_isSpace_of_mark (by tauto))]
  obtain ⟨k, more', rfl, hk, -⟩ := hkeyStarts
  have hfirst (t : List UInt8) : skipWs (front ++ (k :: more' ++ t)) = k :: more' ++ t := by
    rw [skipWs_append hfront]
    exact skipWs_cons hk _
  rw [objectLoop, hfirst, hkey]
  simp only [bind, Except.bind, hcolon, consume_cons, hvalue]
  rw [hread _ hends]
  simp only [hskip]
  rcases hmark with rfl | rfl <;> rw [consume_cons] <;> rfl

/-- A member of the grammar, taken apart. -/
theorem exists_member (hP : Takes parseItem P) {text : List UInt8} (h : IsMember P text) :
    ∃ front keyText back before body after key value, Ws front ∧ Ws back ∧ Starts keyText ∧
      (∀ text, parseString (keyText ++ text) = .ok (key, text)) ∧ Ws before ∧ Ws after ∧
      ReadsAs parseItem body value ∧ Starts body ∧
      text = front ++ (keyText ++ back) ++ 58 :: (before ++ (body ++ after)) := by
  obtain ⟨-, -, ⟨front, keyText, back, hfront, hkeyText, hback, rfl⟩,
    ⟨before, body, after, hbefore, hbody, hafter, rfl⟩, rfl⟩ := h
  obtain ⟨key, hkey⟩ := exists_key hkeyText
  obtain ⟨value, hvalue⟩ := hP.complete hbody
  exact ⟨front, keyText, back, before, body, after, key, value, hfront, hback,
    starts_string hkeyText, hkey, hbefore, hafter, hvalue, hP.starts hbody, rfl⟩

theorem objectLoop_complete (hP : Takes parseItem P) {inner : List UInt8}
    (h : Listed (IsMember P) inner) (members : List (List UInt8 × Value D)) :
    ∃ value, ∀ fuel, inner.length < fuel → ∀ text,
      objectLoop parseItem fuel members (inner ++ 125 :: text) = .ok (value, text) := by
  induction h generalizing members with
  | one hitem =>
      obtain ⟨front, keyText, back, before, body, after, key, value, hfront, hback, hkeyStarts,
        hkey, hbefore, hafter, hread, hstarts, rfl⟩ := exists_member hP hitem
      refine ⟨.object (set key value members), fun fuel hfuel text => ?_⟩
      obtain ⟨left, rfl⟩ : ∃ left, fuel = left + 1 := ⟨fuel - 1, by omega⟩
      have hround := objectLoop_round hfront hback hkeyStarts hkey hbefore hafter hread hstarts
        (.inr rfl) left members text
      simpa using hround
  | @more _ rest hitem _ ih =>
      obtain ⟨front, keyText, back, before, body, after, key, value, hfront, hback, hkeyStarts,
        hkey, hbefore, hafter, hread, hstarts, rfl⟩ := exists_member hP hitem
      obtain ⟨object, hobject⟩ := ih (set key value members)
      refine ⟨object, fun fuel hfuel text => ?_⟩
      simp only [List.length_append, List.length_cons] at hfuel
      obtain ⟨left, rfl⟩ : ∃ left, fuel = left + 1 := ⟨fuel - 1, by omega⟩
      refine Eq.trans ?_ (hobject left (by omega) text)
      have hround := objectLoop_round hfront hback hkeyStarts hkey hbefore hafter hread hstarts
        (.inl rfl) left members (rest ++ 125 :: text)
      simpa using hround

theorem parseObject_complete (hP : Takes parseItem P) {inner : List UInt8}
    (h : Ws inner ∨ Listed (IsMember P) inner) :
    ∃ value, ∀ text, parseObject parseItem (inner ++ 125 :: text) = .ok (value, text) := by
  rcases h with hws | hlist
  · refine ⟨.object [], fun text => ?_⟩
    have hskip : skipWs (inner ++ 125 :: text) = 125 :: text := by
      rw [skipWs_append hws, skipWs_cons (not_isSpace_of_mark (by tauto))]
    rw [parseObject, hskip, consume_cons]
  -- the white space in front belongs to the first key
  · obtain ⟨before, rest, hbefore, rfl, hrest, c, more, rfl, hc, -, hne⟩ :=
      trims_listed (trims_member P) hlist
    obtain ⟨value, hvalue⟩ := objectLoop_complete hP hrest []
    refine ⟨value, fun text => ?_⟩
    have hskip : skipWs (before ++ c :: more ++ 125 :: text) = c :: more ++ 125 :: text := by
      rw [List.append_assoc, skipWs_append hbefore]
      exact skipWs_cons hc _
    have hopen : consume 125 (c :: more ++ 125 :: text) = none := if_neg hne
    rw [parseObject, hskip, hopen]
    exact hvalue _ (by rw [List.length_append]; omega) text

/-- A round that was not refused: a member, and the next round or the brace. -/
theorem objectLoop_cases (hP : Takes parseItem P) {fuel : ℕ}
    {members : List (List UInt8 × Value D)} {text rest : List UInt8} {value : Value D}
    (h : objectLoop parseItem (fuel + 1) members text = .ok (value, rest)) :
    ∃ member, IsMember P member ∧
      ((∃ members' later, text = member ++ 44 :: later ∧
          objectLoop parseItem fuel members' later = .ok (value, rest)) ∨
        text = member ++ 125 :: rest) := by
  obtain ⟨front, hfront, htext⟩ := exists_skipWs text
  rw [objectLoop] at h
  obtain ⟨⟨key, left⟩, hkey, h⟩ := exists_ok h
  obtain ⟨keyText, hkeyText, hleft⟩ := parseString_sound hkey
  obtain ⟨back, hback, hskip⟩ := exists_skipWs left
  dsimp only at h
  cases hcolon : consume 58 (skipWs left) with
  | none =>
      rw [hcolon] at h
      cases h
  | some text' =>
      rw [hcolon] at h
      obtain ⟨⟨item, left'⟩, hitem, h⟩ := exists_ok h
      obtain ⟨before, hbefore, htext'⟩ := exists_skipWs text'
      obtain ⟨body, hbody, hleft'⟩ := hP.sound hitem
      obtain ⟨after, hafter, hskip'⟩ := exists_skipWs left'
      have hopen : text = front ++ (keyText ++ back) ++
          58 :: (before ++ (body ++ after)) ++ skipWs left' := by
        calc text = front ++ skipWs text := htext
          _ = front ++ (keyText ++ left) := by rw [hleft]
          _ = front ++ (keyText ++ (back ++ 58 :: text')) :=
            congrArg (fun t => front ++ (keyText ++ t))
              (hskip.trans (congrArg (back ++ ·) (consume_eq_some hcolon)))
          _ = front ++ (keyText ++ (back ++ 58 :: (before ++ (body ++ left')))) :=
            congrArg (fun t => front ++ (keyText ++ (back ++ 58 :: t)))
              (htext'.trans (congrArg (before ++ ·) hleft'))
          _ = front ++ (keyText ++ (back ++ 58 ::
              (before ++ (body ++ (after ++ skipWs left'))))) :=
            congrArg (fun t => front ++ (keyText ++ (back ++ 58 ::
              (before ++ (body ++ t))))) hskip'
          _ = _ := by simp
      refine ⟨front ++ (keyText ++ back) ++ 58 :: (before ++ (body ++ after)),
        ⟨_, _, ⟨front, keyText, back, hfront, hkeyText, hback, rfl⟩,
          ⟨before, body, after, hbefore, hbody, hafter, rfl⟩, rfl⟩, ?_⟩
      rcases mark_cases h with ⟨later, hcomma, hlater⟩ | hclose
      · exact .inl ⟨_, later, hopen.trans (by rw [hcomma]), hlater⟩
      · exact .inr (hopen.trans (by rw [hclose]))

theorem objectLoop_sound (hP : Takes parseItem P) {fuel : ℕ}
    {members : List (List UInt8 × Value D)} {text rest : List UInt8} {value : Value D}
    (h : objectLoop parseItem fuel members text = .ok (value, rest)) :
    ∃ inner, Listed (IsMember P) inner ∧ text = inner ++ 125 :: rest := by
  induction fuel generalizing members text with
  | zero => cases h
  | succ fuel ih =>
      obtain ⟨member, hmember, ⟨members', later, rfl, hlater⟩ | rfl⟩ := objectLoop_cases hP h
      · obtain ⟨inner, hinner, rfl⟩ := ih hlater
        exact ⟨member ++ 44 :: inner, .more hmember hinner, by simp⟩
      · exact ⟨member, .one hmember, rfl⟩

theorem parseObject_sound (hP : Takes parseItem P) {text rest : List UInt8} {value : Value D}
    (h : parseObject parseItem text = .ok (value, rest)) :
    ∃ inner, (Ws inner ∨ Listed (IsMember P) inner) ∧ text = inner ++ 125 :: rest := by
  obtain ⟨before, hbefore, htext⟩ := exists_skipWs text
  unfold parseObject at h
  dsimp only at h
  cases hclose : consume 125 (skipWs text) with
  | some text' =>
      rw [hclose] at h
      obtain ⟨-, rfl⟩ := Prod.mk.inj (Except.ok.inj h)
      refine ⟨before, .inl hbefore, ?_⟩
      rw [htext, consume_eq_some hclose]
  | none =>
      rw [hclose] at h
      obtain ⟨inner, hinner, hskip⟩ := objectLoop_sound hP h
      refine ⟨before ++ inner, .inr (absorbs_listed (absorbs_member P) hbefore hinner), ?_⟩
      rw [htext, hskip, List.append_assoc]

end Containers

/-! ## Values -/

section Values

variable [DoubleText D]

theorem consumeWord_sound {word : String} {text rest : List UInt8}
    (h : consumeWord word text = some rest) : text = bytes word ++ rest := by
  rw [consumeWord] at h
  split_ifs at h with hbegins
  obtain ⟨more, rfl⟩ := List.isPrefixOf_iff_prefix.mp hbegins
  rw [List.drop_left] at h
  rw [Option.some.inj h]

/-- A word or a number. -/
theorem parseScalar_sound {c : UInt8} {text rest : List UInt8} {value : Value D}
    (h : parseScalar c text = .ok (value, rest)) :
    ∃ body, (body = bytes "null" ∨ body = bytes "true" ∨ body = bytes "false" ∨ IsNumber body) ∧
      text = body ++ rest := by
  unfold parseScalar at h
  cases htrue : consumeWord "true" text with
  | some text' =>
      rw [htrue] at h
      obtain ⟨-, rfl⟩ := Prod.mk.inj (Except.ok.inj h)
      exact ⟨_, .inr (.inl rfl), consumeWord_sound htrue⟩
  | none =>
      rw [htrue] at h
      dsimp only at h
      cases hfalse : consumeWord "false" text with
      | some text' =>
          rw [hfalse] at h
          obtain ⟨-, rfl⟩ := Prod.mk.inj (Except.ok.inj h)
          exact ⟨_, .inr (.inr (.inl rfl)), consumeWord_sound hfalse⟩
      | none =>
          rw [hfalse] at h
          dsimp only at h
          cases hnull : consumeWord "null" text with
          | some text' =>
              rw [hnull] at h
              obtain ⟨-, rfl⟩ := Prod.mk.inj (Except.ok.inj h)
              exact ⟨_, .inl rfl, consumeWord_sound hnull⟩
          | none =>
              rw [hnull] at h
              dsimp only at h
              split_ifs at h
              · obtain ⟨body, hbody, htext⟩ := parseNumber_sound h
                exact ⟨body, .inr (.inr (.inr hbody)), htext⟩
              · cases h

theorem parseValue_sound {levels : ℕ} (hP : Takes (D := D) (parseValue levels) (IsValue levels))
    {text rest : List UInt8} {value : Value D}
    (h : parseValue (levels + 1) text = .ok (value, rest)) :
    ∃ body, IsValue (levels + 1) body ∧ text = body ++ rest := by
  cases text with
  | nil => cases h
  | cons c text =>
      rw [parseValue] at h
      -- the cases of the first byte, as the parser looks at it
      by_cases hbrace : c = 123
      · rw [if_pos hbrace] at h
        obtain ⟨inner, hinner, rfl⟩ := parseObject_sound hP h
        refine ⟨123 :: (inner ++ [125]), ?_, by simp [hbrace]⟩
        exact .inr (.inr (.inr (.inr (.inr (.inr ⟨inner, hinner, rfl⟩)))))
      rw [if_neg hbrace] at h
      by_cases hbracket : c = 91
      · rw [if_pos hbracket] at h
        obtain ⟨inner, hinner, rfl⟩ := parseArray_sound hP h
        refine ⟨91 :: (inner ++ [93]), ?_, by simp [hbracket]⟩
        exact .inr (.inr (.inr (.inr (.inr (.inl ⟨inner, hinner, rfl⟩)))))
      rw [if_neg hbracket] at h
      by_cases hquote : c = 34
      · rw [if_pos hquote] at h
        obtain ⟨⟨s, left⟩, hstring, h⟩ := exists_ok h
        obtain ⟨-, rfl⟩ := Prod.mk.inj (Except.ok.inj h)
        obtain ⟨body, hbody, htext⟩ := parseString_sound hstring
        exact ⟨body, .inr (.inr (.inr (.inr (.inl hbody)))), htext⟩
      rw [if_neg hquote] at h
      obtain ⟨body, hbody, htext⟩ := parseScalar_sound h
      refine ⟨body, ?_, htext⟩
      rcases hbody with h | h | h | h
      · exact .inl h
      · exact .inr (.inl h)
      · exact .inr (.inr (.inl h))
      · exact .inr (.inr (.inr (.inl h)))

theorem parseValue_complete {levels : ℕ} (hP : Takes (D := D) (parseValue levels) (IsValue levels))
    {text : List UInt8} (h : IsValue (levels + 1) text) :
    ∃ value : Value D, ReadsAs (parseValue (levels + 1)) text value := by
  rcases h with rfl | rfl | rfl | ⟨n, rfl⟩ | hstring | ⟨inner, hinner, rfl⟩ | ⟨inner, hinner, rfl⟩
  · exact ⟨.null, fun after _ => parseValue_null levels after⟩
  · exact ⟨.bool true, fun after _ => parseValue_bool levels true after⟩
  · exact ⟨.bool false, fun after _ => parseValue_bool levels false after⟩
  · exact ⟨_, fun after hafter => parseValue_number levels n hafter⟩
  · obtain ⟨s, hs⟩ := exists_key hstring
    obtain ⟨chars, -, rfl⟩ := hstring
    refine ⟨.string s, fun after _ => ?_⟩
    rw [List.cons_append, parseValue, if_neg (by decide), if_neg (by decide), if_pos rfl,
      ← List.cons_append, hs]
    rfl
  · obtain ⟨value, hvalue⟩ := parseArray_complete hP hinner
    refine ⟨value, fun after _ => ?_⟩
    rw [List.cons_append, List.append_assoc, parseValue, if_neg (by decide), if_pos rfl]
    exact hvalue after
  · obtain ⟨value, hvalue⟩ := parseObject_complete hP hinner
    refine ⟨value, fun after _ => ?_⟩
    rw [List.cons_append, List.append_assoc, parseValue, if_pos rfl]
    exact hvalue after

/-- The induction is on the levels: the containers of one hold values of the one below. -/
theorem takes_value (levels : ℕ) : Takes (D := D) (parseValue levels) (IsValue levels) := by
  induction levels with
  | zero => exact ⟨nofun, fun h => h.elim, fun h => h.elim⟩
  | succ levels ih => exact ⟨parseValue_sound ih, parseValue_complete ih, starts_value _⟩

/-- **The parser takes exactly the texts of the grammar.** -/
theorem exists_parse_iff {text : List UInt8} :
    (∃ value : Value D, parse text = .ok value) ↔ IsText kMaxDepth text := by
  have hrun : (∃ value : Value D, parse text = .ok value) ↔
      ∃ value : Value D, run text = .ok value := by
    unfold parse
    cases run (D := D) text with
    | ok value => exact ⟨fun _ => ⟨value, rfl⟩, fun _ => ⟨value, rfl⟩⟩
    | error e => exact ⟨nofun, nofun⟩
  rw [hrun]
  constructor
  · rintro ⟨value, h⟩
    -- what was taken, and the white space around it
    obtain ⟨before, hbefore, htext⟩ := exists_skipWs text
    obtain ⟨⟨value', left⟩, hvalue, h⟩ := exists_ok h
    obtain ⟨after, hafter, hleft⟩ := exists_skipWs left
    dsimp only at h
    split_ifs at h with hend
    · cases h
    obtain ⟨body, hbody, hskip⟩ := (takes_value _).sound hvalue
    rw [not_not.mp hend, List.append_nil] at hleft
    exact ⟨before, body, after, hbefore, hbody, hafter, by rw [htext, hskip, hleft]⟩
  · rintro ⟨before, body, after, hbefore, hbody, hafter, rfl⟩
    obtain ⟨value, hvalue⟩ := (takes_value (D := D) _).complete hbody
    refine ⟨value, ?_⟩
    -- what may follow a value: white space, and then the end
    have hends := hvalue after (by simpa using ends_append hafter ends_nil)
    obtain ⟨c, more, rfl, hc, -⟩ := starts_value _ hbody
    have hfirst : skipWs (before ++ (c :: more ++ after)) = c :: more ++ after := by
      rw [skipWs_append hbefore]
      exact skipWs_cons hc _
    rw [run, hfirst, hends]
    change (if skipWs after ≠ [] then _ else _) = _
    rw [skipWs_of_ws hafter]
    exact if_neg (not_not.mpr rfl)

end Values

end SimJson

end OmegaStick
