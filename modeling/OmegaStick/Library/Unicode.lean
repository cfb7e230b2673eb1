import Mathlib.Data.List.Chain
import Mathlib.Tactic.Common

/-!
# UTF-16 and UTF-8

A sequence of 16-bit units is read as code points, where a surrogate without its partner
stands for itself.  `encode` writes the code points as UTF-8, a lone surrogate as the
replacement character; on sequences without one nothing is lost (`encode_inj`).
-/

namespace Utf16

/-- A scalar value, or a surrogate that is not half of a pair. -/
inductive CodePoint where
  | scalar (c : Char)
  | surrogate (unit : UInt16)
  deriving DecidableEq, Repr

def isLead (unit : UInt16) : Bool := 0xD800 ≤ unit && unit ≤ 0xDBFF

def isTrail (unit : UInt16) : Bool := 0xDC00 ≤ unit && unit ≤ 0xDFFF

/-- The scalar value of a surrogate pair. -/
def pair (lead trail : UInt16) : Char :=
  .ofNat (0x10000 + (lead.toNat - 0xD800) * 0x400 + (trail.toNat - 0xDC00))

def single (unit : UInt16) : CodePoint :=
  if isLead unit || isTrail unit then .surrogate unit else .scalar (.ofNat unit.toNat)

def codePoints : List UInt16 → List CodePoint
  | [] => []
  | [unit] => [single unit]
  | unit :: next :: rest =>
      if isLead unit && isTrail next then .scalar (pair unit next) :: codePoints rest
      else single unit :: codePoints (next :: rest)

/-- The units of a scalar value. -/
def charUnits (c : Char) : List UInt16 :=
  if c.toNat < 0x10000 then [UInt16.ofNat c.toNat]
  else
    [UInt16.ofNat (0xD800 + (c.toNat - 0x10000) / 0x400),
      UInt16.ofNat (0xDC00 + (c.toNat - 0x10000) % 0x400)]

def CodePoint.units : CodePoint → List UInt16
  | .scalar c => charUnits c
  | .surrogate unit => [unit]

/-- A lone surrogate is replaced. -/
def CodePoint.toChar : CodePoint → Char
  | .scalar c => c
  | .surrogate _ => .ofNat 0xFFFD

/-- No surrogate is alone. -/
def Paired (text : List UInt16) : Prop := ∀ point ∈ codePoints text, ∃ c, point = .scalar c

/-- The bytes of a text. -/
def utf8 (text : List Char) : List UInt8 := text.flatMap String.utf8EncodeChar

def encode (text : List UInt16) : List UInt8 := utf8 ((codePoints text).map CodePoint.toChar)

/-- The units of a literal. -/
def units (text : String) : List UInt16 := text.toList.flatMap charUnits

/-- The bytes of a literal. -/
def bytes (text : String) : List UInt8 := utf8 text.toList

instance (text : List UInt16) : Decidable (Paired text) :=
  decidable_of_iff (∀ point ∈ codePoints text, point = .scalar point.toChar) <| by
    refine forall₂_congr fun point _ => ?_
    cases point <;> simp [CodePoint.toChar]

/-! ## Reading units -/

theorem codePoints_cons_of_not_lead {unit : UInt16} (h : isLead unit = false) (rest : List UInt16) :
    codePoints (unit :: rest) = single unit :: codePoints rest := by
  cases rest with
  | nil => rfl
  | cons next rest => simp [codePoints, h]

theorem lead_bounds {unit : UInt16} (h : isLead unit = true) :
    0xD800 ≤ unit.toNat ∧ unit.toNat ≤ 0xDBFF := by
  simpa [isLead, UInt16.le_iff_toNat_le] using h

theorem trail_bounds {unit : UInt16} (h : isTrail unit = true) :
    0xDC00 ≤ unit.toNat ∧ unit.toNat ≤ 0xDFFF := by
  simpa [isTrail, UInt16.le_iff_toNat_le] using h

theorem toNat_char {n : ℕ} (h : n < 0xD800 ∨ 0xDFFF < n ∧ n < 0x110000) :
    (Char.ofNat n).toNat = n := by
  rw [Char.ofNat, dif_pos h]
  rfl

theorem toNat_lt (c : Char) : c.toNat < 0xD800 ∨ 0xDFFF < c.toNat ∧ c.toNat < 0x110000 := c.valid

theorem toNat_pair {lead trail : UInt16} (hlead : isLead lead = true)
    (htrail : isTrail trail = true) : (pair lead trail).toNat =
      0x10000 + (lead.toNat - 0xD800) * 0x400 + (trail.toNat - 0xDC00) := by
  have := lead_bounds hlead
  have := trail_bounds htrail
  exact toNat_char (.inr ⟨by omega, by omega⟩)

theorem units_pair {lead trail : UInt16} (hlead : isLead lead = true)
    (htrail : isTrail trail = true) : charUnits (pair lead trail) = [lead, trail] := by
  have hvalue := toNat_pair hlead htrail
  have := lead_bounds hlead
  have := trail_bounds htrail
  have hhigh : 0xD800 + ((pair lead trail).toNat - 0x10000) / 0x400 = lead.toNat := by omega
  have hlow : 0xDC00 + ((pair lead trail).toNat - 0x10000) % 0x400 = trail.toNat := by omega
  rw [charUnits, if_neg (by omega), hhigh, hlow, UInt16.ofNat_toNat, UInt16.ofNat_toNat]

theorem units_single (unit : UInt16) : (single unit).units = [unit] := by
  unfold single
  split_ifs with h
  · rfl
  · have hrange : unit.toNat < 0xD800 ∨ 0xDFFF < unit.toNat := by
      simp only [isLead, isTrail, UInt16.le_iff_toNat_le, Bool.or_eq_true, Bool.and_eq_true,
        decide_eq_true_eq] at h
      simp only [UInt16.reduceToNat] at h
      omega
    have hlt := unit.toNat_lt
    have hvalue : (Char.ofNat unit.toNat).toNat = unit.toNat := toNat_char (by omega)
    rw [CodePoint.units, charUnits, hvalue, if_pos (by omega), UInt16.ofNat_toNat]

/-- The code points of a text determine it. -/
theorem flatMap_units (text : List UInt16) : (codePoints text).flatMap CodePoint.units = text := by
  induction text using codePoints.induct with
  | case1 => rfl
  | case2 unit => simp [codePoints, units_single]
  | case3 unit next rest h ih =>
      obtain ⟨hlead, htrail⟩ := Bool.and_eq_true_iff.mp h
      rw [codePoints, if_pos h, List.flatMap_cons, ih, CodePoint.units, units_pair hlead htrail]
      rfl
  | case4 unit next rest h ih =>
      rw [codePoints, if_neg h, List.flatMap_cons, ih, units_single]
      rfl

theorem codePoints_charUnits (c : Char) (rest : List UInt16) :
    codePoints (charUnits c ++ rest) = .scalar c :: codePoints rest := by
  have hc := toNat_lt c
  unfold charUnits
  split_ifs with hsmall
  -- one unit, which is no half of a pair
  · have hvalue : (UInt16.ofNat c.toNat).toNat = c.toNat := by
      rw [UInt16.toNat_ofNat']
      omega
    have hlead : isLead (UInt16.ofNat c.toNat) = false := by
      simp only [isLead, UInt16.le_iff_toNat_le, hvalue, Bool.and_eq_false_iff,
        decide_eq_false_iff_not, UInt16.reduceToNat]
      omega
    have htrail : isTrail (UInt16.ofNat c.toNat) = false := by
      simp only [isTrail, UInt16.le_iff_toNat_le, hvalue, Bool.and_eq_false_iff,
        decide_eq_false_iff_not, UInt16.reduceToNat]
      omega
    have hsingle : single (UInt16.ofNat c.toNat) = .scalar c := by
      rw [single, hlead, htrail, hvalue, Char.ofNat_toNat]
      rfl
    rw [List.singleton_append, codePoints_cons_of_not_lead hlead, hsingle]
  -- two halves, from which the value is put together again
  · have hhigh : (UInt16.ofNat (0xD800 + (c.toNat - 0x10000) / 0x400)).toNat =
        0xD800 + (c.toNat - 0x10000) / 0x400 := by
      rw [UInt16.toNat_ofNat']
      omega
    have hlow : (UInt16.ofNat (0xDC00 + (c.toNat - 0x10000) % 0x400)).toNat =
        0xDC00 + (c.toNat - 0x10000) % 0x400 := by
      rw [UInt16.toNat_ofNat']
      omega
    have hlead : isLead (UInt16.ofNat (0xD800 + (c.toNat - 0x10000) / 0x400)) = true := by
      simp only [isLead, UInt16.le_iff_toNat_le, hhigh, Bool.and_eq_true, decide_eq_true_eq,
        UInt16.reduceToNat]
      omega
    have htrail : isTrail (UInt16.ofNat (0xDC00 + (c.toNat - 0x10000) % 0x400)) = true := by
      simp only [isTrail, UInt16.le_iff_toNat_le, hlow, Bool.and_eq_true, decide_eq_true_eq,
        UInt16.reduceToNat]
      omega
    have hpair : pair (UInt16.ofNat (0xD800 + (c.toNat - 0x10000) / 0x400))
        (UInt16.ofNat (0xDC00 + (c.toNat - 0x10000) % 0x400)) = c := by
      rw [← Char.toNat_inj, toNat_pair hlead htrail, hhigh, hlow]
      omega
    rw [List.cons_append, List.singleton_append, codePoints, hlead, htrail, Bool.and_self,
      if_pos rfl, hpair]

theorem codePoints_flatMap_charUnits (text : List Char) :
    codePoints (text.flatMap charUnits) = text.map CodePoint.scalar := by
  induction text with
  | nil => rfl
  | cons c rest ih => rw [List.flatMap_cons, codePoints_charUnits, ih, List.map_cons]

theorem isSurrogate_of_mem {text : List UInt16} {unit : UInt16}
    (h : .surrogate unit ∈ codePoints text) : isLead unit = true ∨ isTrail unit = true := by
  have hsingle {u : UInt16} (h : CodePoint.surrogate unit = single u) :
      isLead unit = true ∨ isTrail unit = true := by
    unfold single at h
    split_ifs at h with hu
    obtain rfl := CodePoint.surrogate.inj h
    exact Bool.or_eq_true_iff.mp hu
  induction text using codePoints.induct with
  | case1 => cases h
  | case2 u =>
      rw [codePoints, List.mem_singleton] at h
      exact hsingle h
  | case3 u next rest hpair ih =>
      rw [codePoints, if_pos hpair] at h
      rcases List.mem_cons.mp h with h | h
      · cases h
      · exact ih h
  | case4 u next rest hpair ih =>
      rw [codePoints, if_neg hpair] at h
      rcases List.mem_cons.mp h with h | h
      · exact hsingle h
      · exact ih h

/-- The halves of a pair side by side. -/
def SplitPair (p q : CodePoint) : Prop :=
  ∃ lead trail, p = .surrogate lead ∧ q = .surrogate trail ∧ isLead lead = true ∧
    isTrail trail = true

theorem head_codePoints (unit : UInt16) (rest : List UInt16) {point : CodePoint}
    (h : point ∈ (codePoints (unit :: rest)).head?) :
    point = single unit ∨ ∃ c, point = .scalar c := by
  cases rest with
  | nil => exact .inl (Option.some.inj h).symm
  | cons next rest =>
      rw [codePoints] at h
      split_ifs at h
      · exact .inr ⟨_, (Option.some.inj h).symm⟩
      · exact .inl (Option.some.inj h).symm

/-- A pair is read as one. -/
theorem isChain_codePoints (text : List UInt16) :
    (codePoints text).IsChain fun p q => ¬ SplitPair p q := by
  induction text using codePoints.induct with
  | case1 => exact .nil
  | case2 unit => exact .singleton _
  | case3 unit next rest hpair ih =>
      rw [codePoints, if_pos hpair]
      refine List.isChain_cons.mpr ⟨fun q _ => ?_, ih⟩
      rintro ⟨lead, trail, hlead, -⟩
      cases hlead
  | case4 unit next rest hpair ih =>
      rw [codePoints, if_neg hpair]
      refine List.isChain_cons.mpr ⟨fun q hq => ?_, ih⟩
      rintro ⟨lead, trail, hp, rfl, hlead, htrail⟩
      have hlead' : lead = unit := by
        unfold single at hp
        split_ifs at hp
        exact (CodePoint.surrogate.inj hp).symm
      have htrail' : trail = next := by
        rcases head_codePoints next rest hq with hnext | ⟨c, hc⟩
        · unfold single at hnext
          split_ifs at hnext
          exact CodePoint.surrogate.inj hnext
        · cases hc
      rw [← hlead', ← htrail', hlead, htrail] at hpair
      exact hpair rfl

/-! ## Literals -/

@[simp] theorem encode_units (text : String) : encode (units text) = bytes text := by
  rw [encode, units, codePoints_flatMap_charUnits, List.map_map]
  exact congrArg utf8 (List.map_id _)

theorem paired_units (text : String) : Paired (units text) := by
  intro point hpoint
  rw [units, codePoints_flatMap_charUnits] at hpoint
  obtain ⟨c, -, rfl⟩ := List.mem_map.mp hpoint
  exact ⟨c, rfl⟩

/-! ## Nothing is lost -/

theorem utf8_inj {a b : List Char} : utf8 a = utf8 b ↔ a = b := by
  refine ⟨fun h => ?_, congrArg utf8⟩
  have hbytes : a.utf8Encode = b.utf8Encode := congrArg List.toByteArray h
  rw [← String.toByteArray_ofList, ← String.toByteArray_ofList, String.toByteArray_inj] at hbytes
  exact String.ofList_inj.mp hbytes

theorem map_scalar_toChar {points : List CodePoint} (h : ∀ point ∈ points, ∃ c, point = .scalar c) :
    (points.map CodePoint.toChar).map CodePoint.scalar = points := by
  induction points with
  | nil => rfl
  | cons point rest ih =>
      obtain ⟨⟨c, rfl⟩, hrest⟩ := List.forall_mem_cons.mp h
      rw [List.map_cons, List.map_cons, ih hrest]
      rfl

theorem bytes_inj {a b : String} : bytes a = bytes b ↔ a = b := utf8_inj.trans String.toList_inj

theorem encode_inj {a b : List UInt16} (ha : Paired a) (hb : Paired b) :
    encode a = encode b ↔ a = b := by
  refine ⟨fun h => ?_, congrArg encode⟩
  have hpoints : codePoints a = codePoints b := by
    rw [← map_scalar_toChar ha, ← map_scalar_toChar hb, utf8_inj.mp h]
  rw [← flatMap_units a, ← flatMap_units b, hpoints]

theorem units_inj {a b : String} : units a = units b ↔ a = b := by
  refine ⟨fun h => ?_, congrArg units⟩
  have hbytes : bytes a = bytes b := by rw [← encode_units, ← encode_units, h]
  exact bytes_inj.mp hbytes

/-- A text is a literal's when its bytes are. -/
theorem encode_eq_bytes {text : List UInt16} (h : Paired text) (literal : String) :
    encode text = bytes literal ↔ text = units literal := by
  rw [← encode_units, encode_inj h (paired_units literal)]

theorem encode_ne_nil {text : List UInt16} (h : text ≠ []) : encode text ≠ [] := by
  intro hnil
  cases hpoints : codePoints text with
  | nil =>
      rw [← flatMap_units text, hpoints] at h
      exact h rfl
  | cons point rest =>
      rw [encode, hpoints] at hnil
      exact String.utf8EncodeChar_ne_nil (List.append_eq_nil_iff.mp hnil).1

/-! ## The bytes of a scalar value -/

theorem utf8_cons (c : Char) (rest : List Char) :
    utf8 (c :: rest) = String.utf8EncodeChar c ++ utf8 rest := rfl

theorem utf8_append (a b : List Char) : utf8 (a ++ b) = utf8 a ++ utf8 b := List.flatMap_append

theorem utf8EncodeChar_of_lt {c : Char} (h : c.toNat < 0x80) :
    String.utf8EncodeChar c = [UInt8.ofNat c.toNat] :=
  if_pos (Nat.le_of_lt_succ h)

/-- A scalar value outside ASCII has no ASCII byte. -/
theorem le_of_mem_utf8EncodeChar {c : Char} (h : 0x80 ≤ c.toNat) {byte : UInt8}
    (hbyte : byte ∈ String.utf8EncodeChar c) : 0x80 ≤ byte.toNat := by
  have hvalue : c.val.toNat = c.toNat := rfl
  unfold String.utf8EncodeChar at hbyte
  simp only [hvalue] at hbyte
  rw [if_neg (by omega)] at hbyte
  split_ifs at hbyte <;> simp only [List.mem_cons, List.not_mem_nil, or_false] at hbyte
  · rcases hbyte with rfl | rfl <;> rw [UInt8.toNat_ofNat'] <;> omega
  · rcases hbyte with rfl | rfl | rfl <;> rw [UInt8.toNat_ofNat'] <;> omega
  · rcases hbyte with rfl | rfl | rfl | rfl <;> rw [UInt8.toNat_ofNat'] <;> omega

end Utf16
