import OmegaStick.Library.Stringify
import OmegaStick.Simulator.Json

/-!
# The numbers `JSON.stringify` writes, read by the simulator

`parse_number` takes a whole numeral and stops behind it (`parseNumber_text`), when what
follows cannot go on with it.
-/

namespace OmegaStick

open DecimalText (isDigit)
open Utf16

namespace SimJson

variable {D : Type} [DoubleText D]

/-- What may follow a number's text. -/
def Ends (text : List UInt8) : Prop :=
  ∀ c ∈ text.head?, isDigit c = false ∧ c ≠ 46 ∧ c ≠ 101 ∧ c ≠ 69

theorem consume_of_head {c : UInt8} {text : List UInt8} (h : text.head? ≠ some c) :
    consume c text = none := by
  cases text with
  | nil => rfl
  | cons b rest => exact if_neg fun hb => h (congrArg some hb)

theorem consume_cons (c : UInt8) (text : List UInt8) : consume c (c :: text) = some text :=
  if_pos rfl

theorem takeDigits_append {digits rest : List UInt8} (hne : digits ≠ [])
    (hdigits : ∀ c ∈ digits, isDigit c = true) (hrest : ∀ c ∈ rest.head?, isDigit c = false) :
    takeDigits (digits ++ rest) = .ok rest := by
  have hdrop := (DecimalText.takeWhile_dropWhile_digits hdigits hrest).2
  obtain ⟨c, more, rfl⟩ := List.exists_cons_of_ne_nil hne
  have hhead : ((c :: more ++ rest).head?.any isDigit) = true := hdigits c List.mem_cons_self
  rw [takeDigits, if_pos hhead, hdrop]

theorem head_append {a b : List UInt8} {P : UInt8 → Prop} (ha : ∀ c ∈ a.head?, P c)
    (hb : ∀ c ∈ b.head?, P c) : ∀ c ∈ (a ++ b).head?, P c := by
  cases a with
  | nil => exact hb
  | cons c rest => exact ha

theorem takeExponent_text (n : Json.Numeral) {rest : List UInt8} (h : Ends rest) :
    takeExponent (n.exponentText ++ rest) = .ok rest := by
  unfold Json.Numeral.exponentText
  cases n.exponent with
  | none =>
      have hsmall : consume 101 rest = none := consume_of_head fun hc => (h _ hc).2.2.1 rfl
      have hlarge : consume 69 rest = none := consume_of_head fun hc => (h _ hc).2.2.2 rfl
      rw [Option.elim_none, List.nil_append, takeExponent, hsmall, hlarge]
      rfl
  | some e =>
      have hdigits := takeDigits_append e.digits_ne_nil e.isDigit_digits fun c hc => (h c hc).1
      have hmark (after : List UInt8) :
          (consume 101 (e.mark :: after)).or (consume 69 (e.mark :: after)) = some after := by
        rcases e.mark_eq with hmark | hmark <;> rw [hmark] <;> rfl
      have hsign : ((consume 43 (e.sign ++ (e.digits ++ rest))).or
          (consume 45 (e.sign ++ (e.digits ++ rest)))).getD (e.sign ++ (e.digits ++ rest)) =
          e.digits ++ rest := by
        rcases e.sign_eq with hsign | hsign | hsign <;> rw [hsign]
        · obtain ⟨c, more, hmore⟩ := List.exists_cons_of_ne_nil e.digits_ne_nil
          have hc := e.isDigit_digits c (hmore ▸ List.mem_cons_self)
          have hplus : consume 43 (e.digits ++ rest) = none := by
            rw [hmore]
            exact if_neg fun h => absurd (h ▸ hc) (by decide)
          have hminus : consume 45 (e.digits ++ rest) = none := by
            rw [hmore]
            exact if_neg fun h => absurd (h ▸ hc) (by decide)
          rw [List.nil_append, hplus, hminus]
          rfl
        · rfl
        · rfl
      rw [Option.elim_some, Json.ExponentPart.text, List.cons_append, List.append_assoc,
        takeExponent, hmark]
      dsimp only
      rw [hsign, hdigits]

theorem head_exponentText (n : Json.Numeral) :
    ∀ c ∈ n.exponentText.head?, isDigit c = false ∧ c ≠ 46 := by
  unfold Json.Numeral.exponentText
  cases n.exponent with
  | none => exact nofun
  | some e =>
      intro c hc
      obtain rfl : e.mark = c := Option.some.inj hc
      rcases e.mark_eq with hmark | hmark <;> rw [hmark] <;> decide

theorem takeFraction_text (n : Json.Numeral) {rest : List UInt8} (h : Ends rest) :
    takeFraction (n.pointText ++ (n.exponentText ++ rest)) = .ok (n.exponentText ++ rest) := by
  have hhead := head_append (P := fun c => isDigit c = false ∧ c ≠ 46) (head_exponentText n)
    fun c hc => ⟨(h c hc).1, (h c hc).2.1⟩
  unfold Json.Numeral.pointText
  split_ifs with hempty
  · rw [List.nil_append, takeFraction, consume_of_head fun hc => (hhead _ hc).2 rfl]
  · rw [List.cons_append, takeFraction, consume_cons]
    exact takeDigits_append (fun hnil => hempty (by rw [hnil]; rfl)) n.isDigit_fraction
      fun c hc => (hhead c hc).1

theorem takeWhole_text (n : Json.Numeral) {rest : List UInt8}
    (h : ∀ c ∈ rest.head?, isDigit c = false) : takeWhole (n.whole ++ rest) = .ok rest := by
  rcases n.whole_eq with hzero | ⟨d, more, hwhole, hd⟩
  · rw [hzero]
    rfl
  · have hnone : consume 48 (n.whole ++ rest) = none := by
      rw [hwhole]
      exact if_neg hd
    rw [takeWhole, hnone]
    exact takeDigits_append (hwhole ▸ List.cons_ne_nil d more) n.isDigit_whole h

theorem exists_whole (n : Json.Numeral) :
    ∃ d more, n.whole = d :: more ∧ isDigit d = true := by
  rcases n.whole_eq with hzero | ⟨d, more, hwhole, -⟩
  · exact ⟨48, [], hzero, rfl⟩
  · exact ⟨d, more, hwhole, n.isDigit_whole d (hwhole ▸ List.mem_cons_self)⟩

theorem parseNumber_text (n : Json.Numeral) {rest : List UInt8} (h : Ends rest) :
    (parseNumber (n.text ++ rest) : Parsed (Value D × List UInt8)) =
      .ok (.number (DoubleText.strtod n.text), rest) := by
  obtain ⟨d, more, hwhole, hd⟩ := exists_whole n
  have hsign : (consume 45 (n.text ++ rest)).getD (n.text ++ rest) =
      n.whole ++ (n.pointText ++ (n.exponentText ++ rest)) := by
    unfold Json.Numeral.text Json.Numeral.sign
    split_ifs
    · simp [consume]
    · have hnone : consume 45 (n.whole ++ (n.pointText ++ n.exponentText) ++ rest) = none := by
        rw [hwhole]
        exact if_neg fun heq => absurd (heq ▸ hd) (by decide)
      rw [List.nil_append, hnone, Option.getD_none, List.append_assoc, List.append_assoc]
  have hpoint : ∀ c ∈ (n.pointText ++ (n.exponentText ++ rest)).head?, isDigit c = false := by
    refine head_append (fun c hc => ?_) (head_append (fun c hc => (head_exponentText n c hc).1)
      fun c hc => (h c hc).1)
    unfold Json.Numeral.pointText at hc
    split_ifs at hc
    · cases hc
    · obtain rfl := Option.some.inj hc
      rfl
  have htaken : (n.text ++ rest).take ((n.text ++ rest).length - rest.length) = n.text := by
    rw [List.length_append, Nat.add_sub_cancel, List.take_left]
  rw [parseNumber, hsign, takeWhole_text n hpoint]
  change (takeFraction _ >>= _) = _
  rw [takeFraction_text n h]
  change (takeExponent _ >>= _) = _
  rw [takeExponent_text n h]
  change Except.ok _ = _
  rw [htaken]

/-! ## Words -/

theorem consumeWord_of_head {word : String} {w c : UInt8} {more text : List UInt8}
    (hword : bytes word = w :: more) (h : w ≠ c) : consumeWord word (c :: text) = none := by
  rw [consumeWord, hword, List.isPrefixOf, beq_false_of_ne h]
  rfl

/-- A number's text starts with a sign or a digit. -/
theorem exists_text (n : Json.Numeral) :
    ∃ c more, n.text = c :: more ∧ (c = 45 ∨ isDigit c = true) := by
  obtain ⟨d, digits, hwhole, hd⟩ := exists_whole n
  unfold Json.Numeral.text Json.Numeral.sign
  split_ifs
  · exact ⟨45, _, rfl, .inl rfl⟩
  · refine ⟨d, digits ++ (n.pointText ++ n.exponentText), ?_, .inr hd⟩
    rw [hwhole]
    rfl

theorem parseScalar_number {c : UInt8} (hc : c = 45 ∨ isDigit c = true) (text : List UInt8) :
    (parseScalar c (c :: text) : Parsed (Value D × List UInt8)) = parseNumber (c :: text) := by
  have hcondition : (decide (c = 45) || isDigit c) = true := by
    rcases hc with rfl | hc
    · rfl
    · rw [hc, Bool.or_true]
  have hne {w : UInt8} (hw : w ≠ 45) (hdigit : isDigit w = false) : w ≠ c := by
    rintro rfl
    rcases hc with hc | hc
    · exact hw hc
    · rw [hc] at hdigit
      cases hdigit
  rw [parseScalar, consumeWord_of_head (w := 116) rfl (hne (by decide) rfl),
    consumeWord_of_head (w := 102) rfl (hne (by decide) rfl),
    consumeWord_of_head (w := 110) rfl (hne (by decide) rfl)]
  exact if_pos hcondition

end SimJson

end OmegaStick
