import OmegaStick.Library.Utf8Boundary
import OmegaStick.Service.Wire

/-!
# The text of an error

`build_error` and `notify_calibration_result` walk back from the last byte that fits over
the bytes that continue a character.  What stays of a UTF-8 message is UTF-8, and no longer
prefix that is fits the payload (`errors_cut_on_characters`).
-/

namespace OmegaStick

open Utf16 (IsUtf8 isContinuation isUtf8_take_iff)

/-! ## The cut -/

/-- The walk ends at the start, or before a byte that does not continue a character. -/
theorem not_isContinuation_cutPoint (message : List UInt8) (count : ℕ)
    (h : cutPoint message count ≠ 0) :
    ∀ byte, message[cutPoint message count]? = some byte → isContinuation byte = false := by
  induction count with
  | zero => exact absurd rfl h
  | succ count ih =>
      unfold cutPoint at h ⊢
      cases hbyte : message[count + 1]? with
      | none =>
          intro byte hsome
          rw [hbyte] at hsome
          cases hsome
      | some byte =>
          rw [hbyte] at h
          dsimp only at h ⊢
          by_cases hcont : byte &&& 0xC0 = 0x80
          · rw [if_pos hcont] at h ⊢
            exact ih h
          · rw [if_neg hcont, hbyte]
            intro byte' hsome
            obtain rfl := Option.some.inj hsome
            exact decide_eq_false hcont

/-- The walk passes no place where a character starts. -/
theorem le_cutPoint {message : List UInt8} {count n : ℕ} (hle : n ≤ count)
    (h : ∀ byte, message[n]? = some byte → isContinuation byte = false) :
    n ≤ cutPoint message count := by
  induction count with
  | zero => exact hle
  | succ count ih =>
      unfold cutPoint
      cases hbyte : message[count + 1]? with
      | none => exact hle
      | some byte =>
          dsimp only
          by_cases hcont : byte &&& 0xC0 = 0x80
          · have hne : n ≠ count + 1 := by
              rintro rfl
              exact absurd hcont (of_decide_eq_false (h byte hbyte))
            rw [if_pos hcont]
            exact ih (by omega)
          · rw [if_neg hcont]
            exact hle

section Cut

variable {message : List UInt8} (hmessage : IsUtf8 message) (room : ℕ)

theorem length_cutMessage (message : List UInt8) (room : ℕ) :
    (cutMessage message room).length = cutPoint message (min message.length room) := by
  have hle := cutPoint_le message (min message.length room)
  rw [cutMessage, List.length_take]
  omega

include hmessage

theorem isUtf8_cutMessage : IsUtf8 (cutMessage message room) := by
  unfold cutMessage
  by_cases hzero : cutPoint message (min message.length room) = 0
  · rw [hzero]
    exact ⟨[], List.take_zero⟩
  · exact (isUtf8_take_iff hmessage).mpr (not_isContinuation_cutPoint message _ hzero)

/-- **No longer text fits.** -/
theorem prefix_cutMessage {q : List UInt8} (hbegins : q <+: message) (hq : IsUtf8 q)
    (hroom : q.length ≤ room) : q <+: cutMessage message room := by
  have htake : q = message.take q.length := List.prefix_iff_eq_take.mp hbegins
  have hstart : ∀ byte, message[q.length]? = some byte → isContinuation byte = false := by
    refine (isUtf8_take_iff hmessage).mp ?_
    rwa [← htake]
  have hle : q.length ≤ cutPoint message (min message.length room) :=
    le_cutPoint (le_min hbegins.length_le hroom) hstart
  refine List.prefix_of_prefix_length_le hbegins (List.take_prefix _ _) ?_
  rwa [length_cutMessage]

end Cut

/-! ## The payloads -/

/-- After its head the payload holds the longest part of the message that is a text and
fits. -/
structure CutOnCharacter (head message payload : List UInt8) : Prop where
  length_le : payload.length ≤ kMaxPayloadSize
  part : ∃ part, payload = head ++ part ∧ part <+: message ∧ IsUtf8 part ∧
    ∀ q, q <+: message → IsUtf8 q → (head ++ q).length ≤ kMaxPayloadSize → q <+: part

theorem cutOnCharacter {head message : List UInt8} (hmessage : IsUtf8 message)
    (hhead : head.length ≤ kMaxPayloadSize) :
    CutOnCharacter head message
      (head ++ cutMessage message (kMaxPayloadSize - head.length)) where
  length_le := by
    have hle := length_cutMessage_le message (kMaxPayloadSize - head.length)
    rw [List.length_append]
    omega
  part := by
    refine ⟨_, rfl, List.take_prefix _ _, isUtf8_cutMessage hmessage _,
      fun q hbegins hq hfits => ?_⟩
    rw [List.length_append] at hfits
    exact prefix_cutMessage hmessage _ hbegins hq (by omega)

/-- **Both error texts are cut on a character**, as late as the payload allows. -/
theorem errors_cut_on_characters (errc : ErrcTable) (moduleId : UInt8) (ec : ErrorCode)
    (context : List UInt8) (hcontext : IsUtf8 context) (hmessage : IsUtf8 ec.message) :
    CutOnCharacter (putU32 (UInt32.ofInt (ec.normalized errc)))
        (context ++ ascii ": " ++ ec.message) (buildError errc moduleId ec context).payload ∧
      CutOnCharacter (0 :: putU32 (UInt32.ofInt ec.value)) ec.message
        (calibrationResultPayload (some ec)) := by
  have hcolon : IsUtf8 (ascii ": ") := ⟨[Char.ofNat 58, Char.ofNat 32], by decide⟩
  refine ⟨cutOnCharacter ((hcontext.append hcolon).append hmessage) ?_, cutOnCharacter hmessage ?_⟩
  · rw [length_putU32]
    decide
  · rw [List.length_cons, length_putU32]
    decide

/-- A message longer than a payload, of letters of two bytes each. -/
theorem errors_cut_on_characters_umlauts :
    let errc : ErrcTable := ⟨fun _ => 5, fun _ => ascii "Input/output error"⟩
    let ec : ErrorCode := ⟨5, .generic, Utf16.utf8 (List.replicate 3000 (Char.ofNat 0xE4))⟩
    CutOnCharacter (putU32 (UInt32.ofInt (ec.normalized errc)))
        (ascii "save" ++ ascii ": " ++ ec.message)
        (buildError errc 1 ec (ascii "save")).payload ∧
      CutOnCharacter (0 :: putU32 (UInt32.ofInt ec.value)) ec.message
        (calibrationResultPayload (some ec)) :=
  errors_cut_on_characters _ 1 _ _
    ⟨[Char.ofNat 115, Char.ofNat 97, Char.ofNat 118, Char.ofNat 101], by decide⟩ ⟨_, rfl⟩

end OmegaStick
