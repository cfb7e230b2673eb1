import OmegaStick.Library.DecimalRead

/-!
# JSON values and numerals

A JSON value over a type of numbers and a type of strings, with the recursion over it as
a `Fold`.  A numeral is a number's text by its parts.  `DoubleText` is what programs
exchange of doubles as text: one side writes a numeral, the other reads the number back.
-/

/-- A JSON value. -/
inductive Json (N S : Type) where
  | null
  | bool (b : Bool)
  | number (n : N)
  | string (s : S)
  | array (items : List (Json N S))
  | object (members : List (S × Json N S))

namespace Json

variable {N S R : Type}

/-! ## Recursion over a value -/

/-- What a function does at each kind of value, with its results on the parts. -/
structure Fold (N S R : Type) where
  null : R
  bool : Bool → R
  number : N → R
  string : S → R
  array : List R → R
  object : List (S × R) → R

namespace Fold

variable (f : Fold N S R)

mutual

def run : Json N S → R
  | .null => f.null
  | .bool b => f.bool b
  | .number n => f.number n
  | .string s => f.string s
  | .array items => f.array (runItems items)
  | .object members => f.object (runMembers members)

def runItems : List (Json N S) → List R
  | [] => []
  | item :: rest => run item :: runItems rest

def runMembers : List (S × Json N S) → List (S × R)
  | [] => []
  | (key, value) :: rest => (key, run value) :: runMembers rest

end

@[simp] theorem run_null : f.run .null = f.null := by rw [run]

@[simp] theorem run_bool (b : Bool) : f.run (.bool b) = f.bool b := by rw [run]

@[simp] theorem run_number (n : N) : f.run (.number n) = f.number n := by rw [run]

@[simp] theorem run_string (s : S) : f.run (.string s) = f.string s := by rw [run]

theorem runItems_eq_map (items : List (Json N S)) : f.runItems items = items.map f.run := by
  induction items with
  | nil => rw [runItems, List.map_nil]
  | cons item rest ih => rw [runItems, ih, List.map_cons]

theorem runMembers_eq_map (members : List (S × Json N S)) :
    f.runMembers members = members.map fun m => (m.1, f.run m.2) := by
  induction members with
  | nil => rw [runMembers, List.map_nil]
  | cons m rest ih => rw [runMembers, ih, List.map_cons]

@[simp] theorem run_array (items : List (Json N S)) :
    f.run (.array items) = f.array (items.map f.run) := by
  rw [run, runItems_eq_map]

@[simp] theorem run_object (members : List (S × Json N S)) :
    f.run (.object members) = f.object (members.map fun m => (m.1, f.run m.2)) := by
  rw [run, runMembers_eq_map]

end Fold

/-! ## Values as trees -/

/-- The members of an object; nothing else has any. -/
def members : Json N S → List (S × Json N S)
  | .object members => members
  | _ => []

/-- The value under a key. -/
def find [DecidableEq S] (key : S) (value : Json N S) : Option (Json N S) :=
  (value.members.find? fun m => m.1 = key).map Prod.snd

/-- No value stands more than `levels` deep, the outermost one counted. -/
def Fits : ℕ → Json N S → Prop
  | 0, _ => False
  | levels + 1, .array items => ∀ item ∈ items, Fits levels item
  | levels + 1, .object members => ∀ m ∈ members, Fits levels m.2
  | _ + 1, _ => True

/-- Every string of a value: its keys, and those that are values. -/
def strings : Json N S → List S :=
  Fold.run
    { null := []
      bool _ := []
      number _ := []
      string s := [s]
      array items := items.flatten
      object members := members.flatMap fun m => m.1 :: m.2 }

/-- Every number of a value. -/
def numbers : Json N S → List N :=
  Fold.run
    { null := []
      bool _ := []
      number n := [n]
      string _ := []
      array items := items.flatten
      object members := members.flatMap Prod.snd }

/-- The objects of a value have no key twice. -/
def distinctKeys [DecidableEq S] : Json N S → Bool :=
  Fold.run
    { null := true
      bool _ := true
      number _ := true
      string _ := true
      array items := items.all id
      object members := decide (members.map Prod.fst).Nodup && members.all Prod.snd }

@[simp] theorem mem_strings_string {s t : S} : t ∈ (Json.string s : Json N S).strings ↔ t = s := by
  simp [strings]

@[simp] theorem mem_strings_array {items : List (Json N S)} {t : S} :
    t ∈ (Json.array items).strings ↔ ∃ item ∈ items, t ∈ item.strings := by
  simp [strings]

@[simp] theorem mem_strings_object {members : List (S × Json N S)} {t : S} :
    t ∈ (Json.object members).strings ↔ ∃ m ∈ members, t = m.1 ∨ t ∈ m.2.strings := by
  simp [strings]

@[simp] theorem mem_numbers_number {n m : N} : m ∈ (Json.number n : Json N S).numbers ↔ m = n := by
  simp [numbers]

@[simp] theorem mem_numbers_array {items : List (Json N S)} {n : N} :
    n ∈ (Json.array items).numbers ↔ ∃ item ∈ items, n ∈ item.numbers := by
  simp [numbers]

@[simp] theorem mem_numbers_object {members : List (S × Json N S)} {n : N} :
    n ∈ (Json.object members).numbers ↔ ∃ m ∈ members, n ∈ m.2.numbers := by
  simp [numbers]

@[simp] theorem distinctKeys_array [DecidableEq S] {items : List (Json N S)} :
    (Json.array items).distinctKeys = true ↔ ∀ item ∈ items, item.distinctKeys = true := by
  simp [distinctKeys]

@[simp] theorem distinctKeys_object [DecidableEq S] {members : List (S × Json N S)} :
    (Json.object members).distinctKeys = true ↔
      (members.map Prod.fst).Nodup ∧ ∀ m ∈ members, m.2.distinctKeys = true := by
  simp [distinctKeys, Function.comp_def]

theorem Fits.succ {levels : ℕ} {value : Json N S} (h : value.Fits levels) :
    value.Fits (levels + 1) := by
  induction levels generalizing value with
  | zero => cases value <;> exact h.elim
  | succ levels ih =>
      cases value with
      | array items => exact fun item hitem => ih (h item hitem)
      | object members => exact fun m hm => ih (h m hm)
      | _ => trivial

theorem Fits.mono {low high : ℕ} (hle : low ≤ high) {value : Json N S} (h : value.Fits low) :
    value.Fits high := by
  induction hle with
  | refl => exact h
  | step _ ih => exact ih.succ

/-! ## Members -/

section Members

variable [DecidableEq S]

theorem find_object (key : S) (members : List (S × Json N S)) :
    (Json.object members).find key = (members.find? fun m => m.1 = key).map Prod.snd := rfl

theorem mem_of_find {key : S} {value found : Json N S} (h : value.find key = some found) :
    (key, found) ∈ value.members := by
  obtain ⟨⟨k, v⟩, hfind, rfl⟩ := Option.map_eq_some_iff.mp h
  obtain rfl : k = key := by simpa using List.find?_some hfind
  exact List.mem_of_find?_eq_some hfind

/-- With distinct keys every member is the one that is found. -/
theorem find_of_mem {key : S} {members : List (S × Json N S)} {value : Json N S}
    (hkeys : (members.map Prod.fst).Nodup) (h : (key, value) ∈ members) :
    (Json.object members).find key = some value := by
  rw [find_object]
  induction members with
  | nil => cases h
  | cons m rest ih =>
      rw [List.map_cons, List.nodup_cons] at hkeys
      rcases List.mem_cons.mp h with rfl | hrest
      · simp
      · have hne : m.1 ≠ key := fun heq =>
          hkeys.1 (heq ▸ List.mem_map_of_mem (f := Prod.fst) hrest)
        rw [List.find?_cons_of_neg (by simpa using hne)]
        exact ih hkeys.2 hrest

end Members

/-! ## Numerals -/

open DecimalText (isDigit)

/-- `e` or `E`, a sign or none, and digits. -/
structure ExponentPart where
  mark : UInt8
  sign : List UInt8
  digits : List UInt8
  mark_eq : mark = 101 ∨ mark = 69
  sign_eq : sign = [] ∨ sign = [43] ∨ sign = [45]
  digits_ne_nil : digits ≠ []
  isDigit_digits : ∀ c ∈ digits, isDigit c = true

def ExponentPart.text (e : ExponentPart) : List UInt8 := e.mark :: (e.sign ++ e.digits)

/-- A number's text by its parts; without digits after the point there is no point. -/
structure Numeral where
  negative : Bool
  whole : List UInt8
  fraction : List UInt8
  exponent : Option ExponentPart
  whole_eq : whole = [48] ∨ ∃ d rest, whole = d :: rest ∧ d ≠ 48
  isDigit_whole : ∀ c ∈ whole, isDigit c = true
  isDigit_fraction : ∀ c ∈ fraction, isDigit c = true

namespace Numeral

def sign (n : Numeral) : List UInt8 := if n.negative then [45] else []

def pointText (n : Numeral) : List UInt8 := if n.fraction.isEmpty then [] else 46 :: n.fraction

def exponentText (n : Numeral) : List UInt8 := n.exponent.elim [] ExponentPart.text

def text (n : Numeral) : List UInt8 := n.sign ++ (n.whole ++ (n.pointText ++ n.exponentText))

theorem lt_of_isDigit {c : UInt8} (h : isDigit c = true) : c.toNat < 0x80 := by
  rw [isDigit, Bool.and_eq_true, decide_eq_true_eq, decide_eq_true_eq] at h
  exact lt_of_le_of_lt (UInt8.le_iff_toNat_le.mp h.2) (by decide)

theorem lt_of_mem_text {n : Numeral} {c : UInt8} (h : c ∈ n.text) : c.toNat < 0x80 := by
  unfold text sign pointText exponentText at h
  rcases List.mem_append.mp h with h | h
  · split at h
    · rw [List.mem_singleton.mp h]
      decide
    · cases h
  rcases List.mem_append.mp h with h | h
  · exact lt_of_isDigit (n.isDigit_whole c h)
  rcases List.mem_append.mp h with h | h
  · split at h
    · cases h
    · rcases List.mem_cons.mp h with rfl | h
      · decide
      · exact lt_of_isDigit (n.isDigit_fraction c h)
  · cases hexponent : n.exponent with
    | none => simp [hexponent] at h
    | some e =>
        rw [hexponent, Option.elim_some, ExponentPart.text] at h
        rcases List.mem_cons.mp h with rfl | h
        · rcases e.mark_eq with hmark | hmark <;> rw [hmark] <;> decide
        rcases List.mem_append.mp h with h | h
        · rcases e.sign_eq with hsign | hsign | hsign <;> rw [hsign] at h
          · cases h
          · rw [List.mem_singleton.mp h]
            decide
          · rw [List.mem_singleton.mp h]
            decide
        · exact lt_of_isDigit (e.isDigit_digits c h)

/-- The first digit of a positive number is not zero. -/
theorem exists_digitsOf {n : ℕ} (h : n ≠ 0) :
    ∃ d rest, DecimalText.digitsOf 1 n = d :: rest ∧ d ≠ 48 := by
  have hne : Nat.digits 10 n ≠ [] := Nat.digits_ne_nil_iff_ne_zero.mpr h
  have hlast : (Nat.digits 10 n).getLast hne ≠ 0 := Nat.getLast_digit_ne_zero 10 h
  have hlt : (Nat.digits 10 n).getLast hne < 10 :=
    Nat.digits_lt_base (by norm_num) (List.getLast_mem hne)
  have hpadding : 1 - ((Nat.digits 10 n).reverse.map DecimalText.digitByte).length = 0 := by
    have := List.length_pos_iff.mpr hne
    rw [List.length_map, List.length_reverse]
    omega
  refine ⟨DecimalText.digitByte ((Nat.digits 10 n).getLast hne),
    (Nat.digits 10 n).dropLast.reverse.map DecimalText.digitByte, ?_, ?_⟩
  · rw [DecimalText.digitsOf, hpadding, List.replicate_zero, List.nil_append]
    conv_lhs => rw [← List.dropLast_append_getLast hne]
    rw [List.reverse_append, List.reverse_singleton, List.singleton_append, List.map_cons]
  · intro heq
    have htoNat := DecimalText.digitByte_toNat hlt
    rw [heq] at htoNat
    exact hlast (by simpa using htoNat)

/-- A whole number's text. -/
def ofInt (z : ℤ) : Numeral where
  negative := decide (z < 0)
  whole := DecimalText.digitsOf 1 z.natAbs
  fraction := []
  exponent := none
  whole_eq := by
    by_cases hzero : z.natAbs = 0
    · rw [hzero]
      exact .inl (by decide)
    · exact .inr (exists_digitsOf hzero)
  isDigit_whole c hc := DecimalText.isDigit_of_mem_digitsOf hc
  isDigit_fraction := nofun

theorem strtof_ofInt (z : ℤ) : DecimalText.strtof (ofInt z).text = some (z : ℚ) := by
  have hne : DecimalText.digitsOf 1 z.natAbs ≠ [] := by
    rcases (ofInt z).whole_eq with h | ⟨d, rest, h, -⟩
    · exact fun hnil => List.cons_ne_nil _ _ (h.symm.trans hnil)
    · exact fun hnil => List.cons_ne_nil _ _ (h.symm.trans hnil)
  have hread := DecimalText.Numeral.strtof_text
    ⟨DecimalText.digitsOf 1 z.natAbs, [], none, hne, (ofInt z).isDigit_whole, nofun⟩
    (decide (z < 0))
  have hvalue : (if z < 0 then -|(z : ℚ)| else |(z : ℚ)|) = z := by
    split_ifs with h
    · rw [abs_of_neg (by exact_mod_cast h), neg_neg]
    · rw [abs_of_nonneg (by exact_mod_cast not_lt.mp h)]
  simpa [DecimalText.Numeral.text, DecimalText.Numeral.pointText, DecimalText.Numeral.value, text,
    sign, pointText, exponentText, ofInt, hvalue] using hread

/-- A whole number with its sign, which zero has too. -/
def signed (negative : Bool) (n : ℕ) : Numeral := { ofInt n with negative }

theorem text_signed (negative : Bool) (n : ℕ) :
    (signed negative n).text = (if negative then [45] else []) ++ DecimalText.digitsOf 1 n := by
  cases negative <;> simp [signed, ofInt, text, sign, pointText, exponentText]

/-- Its sign taken off, and its value. -/
theorem takeSign_strtof_signed (negative : Bool) (n : ℕ) :
    (DecimalText.takeSign (signed negative n).text).1 = negative ∧
      DecimalText.strtof (signed negative n).text = some (if negative then -(n : ℚ) else n) := by
  have hne : DecimalText.digitsOf 1 n ≠ [] := by
    rcases (ofInt n).whole_eq with h | ⟨d, rest, h, -⟩
    · exact fun hnil => List.cons_ne_nil _ _ (h.symm.trans hnil)
    · exact fun hnil => List.cons_ne_nil _ _ (h.symm.trans hnil)
  let numeral : DecimalText.Numeral :=
    ⟨DecimalText.digitsOf 1 n, [], none, hne, (ofInt n).isDigit_whole, nofun⟩
  have htext : (signed negative n).text = (if negative then [45] else []) ++ numeral.text := by
    simp [text_signed, numeral, DecimalText.Numeral.text, DecimalText.Numeral.pointText]
  have hvalue : numeral.value = n := by
    simp [numeral, DecimalText.Numeral.value]
  refine ⟨?_, ?_⟩
  · rw [htext]
    cases negative with
    | true => rfl
    | false =>
        -- the first digit is no sign
        obtain ⟨c, rest, hfirst, hdigit⟩ := numeral.exists_cons
        rw [hfirst]
        change (DecimalText.takeSign (c :: rest)).1 = false
        unfold DecimalText.takeSign
        split
        · rename_i heq
          obtain ⟨rfl, -⟩ := List.cons.inj heq
          exact absurd hdigit (by decide)
        · rfl
        · rfl
  · rw [htext, numeral.strtof_text, hvalue]

end Numeral

end Json

/-! ## Doubles as text -/

/-- Doubles with the functions that write and read their text. -/
class DoubleText (D : Type) extends Zero D where
  /-- The number a finite double stands for. -/
  value : D → Option ℚ
  /-- The text of a finite double in a script language. -/
  numeral : D → Json.Numeral
  /-- `strtod` on a whole numeral. -/
  strtod : List UInt8 → D

/-- The finite number a JSON value is. -/
def Json.finite {D S : Type} [DoubleText D] : Json D S → Option ℚ
  | .number n => DoubleText.value n
  | _ => none

/-- What a double is written as reads back as the same number. -/
class LawfulDoubleText (D : Type) [DoubleText D] : Prop where
  value_zero : DoubleText.value (0 : D) = some 0
  value_strtod {x : D} {q : ℚ} : DoubleText.value x = some q →
    DoubleText.value (DoubleText.strtod (DoubleText.numeral x).text : D) = some q

/-- The whole numbers among the doubles. -/
instance : DoubleText ℤ where
  value z := some z
  numeral := .ofInt
  strtod text := ((DecimalText.strtof text).map Rat.floor).getD 0

instance : LawfulDoubleText ℤ where
  value_zero := rfl
  value_strtod {z q} h := by
    obtain rfl := Option.some.inj h
    change some ((((DecimalText.strtof (Json.Numeral.ofInt z).text).map Rat.floor).getD 0 : ℤ) : ℚ)
      = some (z : ℚ)
    rw [Json.Numeral.strtof_ofInt, Option.map_some, Option.getD_some, Rat.floor_intCast]

/-! ## Doubles as a program prints them -/

/-- What `printf` writes of a double, besides the digits of a whole number. -/
class DoublePrint (D : Type) [DoubleText D] where
  signbit : D → Bool
  /-- `%.10g` -/
  print10g : D → List UInt8

/-- A double is its value and its sign, and `strtod` reads both back from a whole number
that is small enough to be exact. -/
class LawfulDoublePrint (D : Type) [DoubleText D] [DoublePrint D] : Prop where
  eq_of_value {x y : D} {q : ℚ} : DoubleText.value x = some q → DoubleText.value y = some q →
    DoublePrint.signbit x = DoublePrint.signbit y → x = y
  signbit_of_neg {x : D} {q : ℚ} : DoubleText.value x = some q → q < 0 →
    DoublePrint.signbit x = true
  signbit_of_pos {x : D} {q : ℚ} : DoubleText.value x = some q → 0 < q →
    DoublePrint.signbit x = false
  value_strtod_signed (negative : Bool) {n : ℕ} : n < 10 ^ 15 →
    DoubleText.value (DoubleText.strtod (Json.Numeral.signed negative n).text : D) =
      some (if negative then -(n : ℚ) else n)
  signbit_strtod_signed (negative : Bool) {n : ℕ} : n < 10 ^ 15 →
    DoublePrint.signbit (DoubleText.strtod (Json.Numeral.signed negative n).text : D) = negative

/-- The whole numbers among the doubles, with a zero of either sign. -/
structure WholeDouble where
  negative : Bool
  magnitude : ℕ
  deriving DecidableEq, Repr

namespace WholeDouble

def toRat (x : WholeDouble) : ℚ := if x.negative then -(x.magnitude : ℚ) else x.magnitude

instance : DoubleText WholeDouble where
  zero := ⟨false, 0⟩
  value x := some x.toRat
  numeral x := .ofInt (if x.negative then -(x.magnitude : ℤ) else x.magnitude)
  strtod text :=
    ⟨(DecimalText.takeSign text).1, ⌊|(DecimalText.strtof text).getD 0|⌋₊⟩

instance : DoublePrint WholeDouble where
  signbit x := x.negative
  print10g x := (Json.Numeral.signed x.negative x.magnitude).text

theorem strtod_signed (negative : Bool) (n : ℕ) :
    DoubleText.strtod (Json.Numeral.signed negative n).text = (⟨negative, n⟩ : WholeDouble) := by
  obtain ⟨hsign, hvalue⟩ := Json.Numeral.takeSign_strtof_signed negative n
  change WholeDouble.mk _ _ = _
  rw [hsign, hvalue, Option.getD_some]
  congr 1
  cases negative <;> simp

instance : LawfulDoublePrint WholeDouble where
  eq_of_value {x y q} hx hy hsign := by
    obtain ⟨s, n⟩ := x
    obtain ⟨t, m⟩ := y
    obtain rfl : s = t := hsign
    have heq : toRat ⟨s, n⟩ = toRat ⟨s, m⟩ := (Option.some.inj hx).trans (Option.some.inj hy).symm
    cases s <;> simpa [toRat] using heq
  signbit_of_neg {x q} hx hq := by
    obtain ⟨s, n⟩ := x
    obtain rfl := Option.some.inj hx
    cases s with
    | true => rfl
    | false => exact absurd (Nat.cast_nonneg n) (not_le.mpr hq)
  signbit_of_pos {x q} hx hq := by
    obtain ⟨s, n⟩ := x
    obtain rfl := Option.some.inj hx
    cases s with
    | false => rfl
    | true => exact absurd (Nat.cast_nonneg n) (not_le.mpr (neg_pos.mp hq))
  value_strtod_signed negative n _ := by
    rw [strtod_signed]
    rfl
  signbit_strtod_signed negative n _ := by
    rw [strtod_signed]
    rfl

end WholeDouble
