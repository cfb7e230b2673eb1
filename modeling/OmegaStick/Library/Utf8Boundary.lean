import OmegaStick.Library.Unicode

/-!
# Where a UTF-8 text can be cut

A cut leaves two texts exactly where the byte after it does not continue a character
(`isUtf8_take_iff`).  So whoever walks back over continuation bytes from a limit stops at
the longest prefix within it that is a text.
-/

namespace Utf16

/-- The bytes of some characters. -/
def IsUtf8 (text : List UInt8) : Prop := ∃ chars, text = utf8 chars

/-- A byte that is not the first of its character. -/
def isContinuation (byte : UInt8) : Bool := byte &&& 0xC0 = 0x80

/-! ## One character -/

theorem isContinuation_ofNat (n : ℕ) : isContinuation (UInt8.ofNat (n % 64 + 128)) = true := by
  have hall : ∀ k : Fin 64, isContinuation (UInt8.ofNat (k.val + 128)) = true := by decide
  exact hall ⟨n % 64, Nat.mod_lt n (by decide)⟩

theorem not_isContinuation_of_isUTF8FirstByte {byte : UInt8} (h : byte.IsUTF8FirstByte) :
    isContinuation byte = false := by
  have hall : ∀ k : Fin 256, (UInt8.ofNat k.val).IsUTF8FirstByte →
      isContinuation (UInt8.ofNat k.val) = false := by decide +kernel
  have hbyte : UInt8.ofNat byte.toNat = byte := UInt8.ofNat_toNat
  rw [← hbyte] at h ⊢
  exact hall ⟨byte.toNat, byte.toNat_lt⟩ h

/-- A character is a byte that starts it and bytes that continue it. -/
theorem exists_first (c : Char) :
    ∃ first rest, String.utf8EncodeChar c = first :: rest ∧ isContinuation first = false ∧
      ∀ byte ∈ rest, isContinuation byte = true := by
  obtain ⟨first, rest, heq⟩ :=
    List.exists_cons_of_ne_nil (String.utf8EncodeChar_ne_nil (c := c))
  refine ⟨first, rest, heq, ?_, ?_⟩
  · have hfirst := UInt8.isUTF8FirstByte_getElem_zero_utf8EncodeChar (c := c)
    simp only [heq, List.getElem_cons_zero] at hfirst
    exact not_isContinuation_of_isUTF8FirstByte hfirst
  · unfold String.utf8EncodeChar at heq
    dsimp only at heq
    split_ifs at heq <;> obtain ⟨-, rfl⟩ := List.cons.inj heq
    · exact fun byte hbyte => absurd hbyte List.not_mem_nil
    · exact List.forall_mem_singleton.mpr (isContinuation_ofNat _)
    · exact List.forall_mem_cons.mpr ⟨isContinuation_ofNat _,
        List.forall_mem_singleton.mpr (isContinuation_ofNat _)⟩
    · exact List.forall_mem_cons.mpr ⟨isContinuation_ofNat _, List.forall_mem_cons.mpr
        ⟨isContinuation_ofNat _, List.forall_mem_singleton.mpr (isContinuation_ofNat _)⟩⟩

/-! ## Texts -/

theorem IsUtf8.append {a b : List UInt8} (ha : IsUtf8 a) (hb : IsUtf8 b) : IsUtf8 (a ++ b) := by
  obtain ⟨p, rfl⟩ := ha
  obtain ⟨q, rfl⟩ := hb
  exact ⟨p ++ q, (utf8_append p q).symm⟩

theorem isUtf8_iff {text : List UInt8} : IsUtf8 text ↔ text.toByteArray.IsValidUTF8 := by
  refine ⟨fun ⟨chars, h⟩ => ⟨chars, by rw [h]; rfl⟩, fun ⟨chars, h⟩ => ⟨chars, ?_⟩⟩
  exact List.toByteArray_inj.mp h

/-- What follows a text in a text is one. -/
theorem IsUtf8.of_append {a b : List UInt8} (ha : IsUtf8 a) (h : IsUtf8 (a ++ b)) : IsUtf8 b := by
  obtain ⟨chars, rfl⟩ := ha
  induction chars with
  | nil => exact h
  | cons c rest ih =>
      refine ih ?_
      rw [utf8_cons, List.append_assoc, isUtf8_iff, List.toByteArray_append] at h
      rw [isUtf8_iff]
      refine (ByteArray.isValidUTF8_utf8Encode_singleton_append_iff (c := c)).mp ?_
      rwa [List.utf8Encode_singleton]

/-- A text does not start inside a character. -/
theorem IsUtf8.head {first : UInt8} {rest : List UInt8} (h : IsUtf8 (first :: rest)) :
    isContinuation first = false := by
  obtain ⟨chars, hchars⟩ := h
  cases chars with
  | nil => cases hchars
  | cons c chars =>
      obtain ⟨first', rest', heq, hfirst, -⟩ := exists_first c
      rw [utf8_cons, heq, List.cons_append] at hchars
      rw [(List.cons.inj hchars).1]
      exact hfirst

/-- A cut before a byte that starts a character leaves a text. -/
theorem isUtf8_take {chars : List Char} {n : ℕ}
    (h : ∀ byte, (utf8 chars)[n]? = some byte → isContinuation byte = false) :
    IsUtf8 ((utf8 chars).take n) := by
  induction chars generalizing n with
  | nil => exact ⟨[], by rw [utf8, List.flatMap_nil, List.take_nil]⟩
  | cons c rest ih =>
      obtain ⟨first, cont, heq, hfirst, hcont⟩ := exists_first c
      rw [utf8_cons] at h ⊢
      rcases Nat.eq_zero_or_pos n with rfl | hpos
      · exact ⟨[], List.take_zero⟩
      by_cases hinside : n < (String.utf8EncodeChar c).length
      · -- a cut inside the character stands before a byte that continues it
        have hbyte : (String.utf8EncodeChar c ++ utf8 rest)[n]? = (String.utf8EncodeChar c)[n]? :=
          List.getElem?_append_left hinside
        rw [List.getElem?_eq_getElem hinside] at hbyte
        have hstart := h _ hbyte
        obtain ⟨m, rfl⟩ := Nat.exists_eq_add_of_lt hpos
        have hmem : (String.utf8EncodeChar c)[0 + m + 1] ∈ cont := by
          simp only [heq, List.getElem_cons_succ, List.getElem_mem]
        rw [hcont _ hmem] at hstart
        cases hstart
      · have hle := not_lt.mp hinside
        rw [List.take_append, List.take_of_length_le hle]
        refine IsUtf8.append ⟨[c], (List.append_nil _).symm⟩ (ih fun byte hbyte => h byte ?_)
        rw [List.getElem?_append_right hle, hbyte]

/-- **A cut leaves a text exactly before a byte that starts a character.** -/
theorem isUtf8_take_iff {text : List UInt8} (htext : IsUtf8 text) {n : ℕ} :
    IsUtf8 (text.take n) ↔ ∀ byte, text[n]? = some byte → isContinuation byte = false := by
  constructor
  · intro h byte hbyte
    obtain ⟨hlt, heq⟩ := List.getElem?_eq_some_iff.mp hbyte
    have hdrop : IsUtf8 (text.drop n) := by
      refine h.of_append ?_
      rwa [List.take_append_drop]
    rw [List.drop_eq_getElem_cons hlt, heq] at hdrop
    exact hdrop.head
  · intro h
    obtain ⟨chars, rfl⟩ := htext
    exact isUtf8_take h

end Utf16
