import OmegaStick.Library.Digits

/-!
# Lines, fields and decimal numbers

The pieces of a line-based text format: a text falls into lines as a `getline`
loop reads them, a field ends at the first separator, and a number is written
in decimal and read back with an upper limit.  Each reader has a lemma that
takes the piece back off what was written, whatever follows it.
-/

namespace TextFields

open DecimalText

/-! ## Lines -/

/-- The lines of a text; a last line need not be ended. -/
def lines : List UInt8 → List (List UInt8)
  | [] => []
  | c :: rest =>
      if c = 10 then [] :: lines rest
      else
        match lines rest with
        | [] => [[c]]
        | line :: more => (c :: line) :: more

theorem lines_append_newline {line : List UInt8} (h : 10 ∉ line) (rest : List UInt8) :
    lines (line ++ 10 :: rest) = line :: lines rest := by
  induction line with
  | nil => simp [lines]
  | cons c line ih =>
      rw [List.mem_cons, not_or] at h
      rw [List.cons_append, lines, if_neg (Ne.symm h.1), ih h.2]

theorem newline_notMem_of_mem_lines {text line : List UInt8} (h : line ∈ lines text) :
    10 ∉ line := by
  induction text generalizing line with
  | nil => cases h
  | cons c rest ih =>
      rw [lines] at h
      split_ifs at h with hc
      · rcases List.mem_cons.mp h with rfl | h
        · exact List.not_mem_nil
        · exact ih h
      · cases hrest : lines rest with
        | nil =>
            rw [hrest, List.mem_singleton] at h
            rw [h, List.mem_singleton]
            exact Ne.symm hc
        | cons first more =>
            rw [hrest] at h ih
            rcases List.mem_cons.mp h with rfl | h
            · rw [List.mem_cons, not_or]
              exact ⟨Ne.symm hc, ih List.mem_cons_self⟩
            · exact ih (List.mem_cons_of_mem _ h)

/-- A text of ended lines falls into these lines. -/
theorem lines_flatMap {texts : List (List UInt8)} (h : ∀ line ∈ texts, 10 ∉ line) :
    lines (texts.flatMap (· ++ [10])) = texts := by
  induction texts with
  | nil => rfl
  | cons line texts ih =>
      rw [List.forall_mem_cons] at h
      rw [List.flatMap_cons, List.append_assoc, List.singleton_append, lines_append_newline h.1,
        ih h.2]

/-- An ended line keeps what follows it apart. -/
theorem lines_append (text rest : List UInt8) :
    lines (text ++ 10 :: rest) = lines (text ++ [10]) ++ lines rest := by
  induction text with
  | nil => simp [lines]
  | cons c text ih =>
      rw [List.cons_append, List.cons_append, lines, lines, ih]
      split_ifs with hc
      · rfl
      · cases hlines : lines (text ++ [10]) with
        | nil =>
            cases text with
            | nil => simp [lines] at hlines
            | cons d text =>
                rw [List.cons_append, lines] at hlines
                split_ifs at hlines
                split at hlines <;> cases hlines
        | cons line more => rfl

/-- A text without a newline is one line, when there is anything in it. -/
theorem lines_of_notMem {text : List UInt8} (h : 10 ∉ text) :
    lines text = if text = [] then [] else [text] := by
  induction text with
  | nil => rfl
  | cons c text ih =>
      rw [List.mem_cons, not_or] at h
      rw [lines, if_neg (Ne.symm h.1), ih h.2, if_neg (List.cons_ne_nil c text)]
      split_ifs with hnil
      · rw [hnil]
      · rfl

/-! ## Fields -/

/-- What comes before and after the first separator. -/
def cutAt (sep : UInt8) : List UInt8 → Option (List UInt8 × List UInt8)
  | [] => none
  | c :: rest =>
      if c = sep then some ([], rest)
      else (cutAt sep rest).map fun (field, rest) => (c :: field, rest)

/-- A field is read up to the first separator, and nothing is lost. -/
theorem cutAt_eq_some {sep : UInt8} {text field rest : List UInt8}
    (h : cutAt sep text = some (field, rest)) : text = field ++ sep :: rest ∧ sep ∉ field := by
  induction text generalizing field with
  | nil => cases h
  | cons c text ih =>
      rw [cutAt] at h
      split_ifs at h with hc
      · obtain ⟨rfl, rfl⟩ := Prod.mk.inj (Option.some.inj h)
        exact ⟨by rw [hc]; rfl, List.not_mem_nil⟩
      · obtain ⟨⟨first, last⟩, hcut, hpair⟩ := Option.map_eq_some_iff.mp h
        obtain ⟨rfl, rfl⟩ := Prod.mk.inj hpair
        obtain ⟨rfl, hmem⟩ := ih hcut
        exact ⟨rfl, by rw [List.mem_cons, not_or]; exact ⟨Ne.symm hc, hmem⟩⟩

theorem cutAt_append {sep : UInt8} {field : List UInt8} (h : sep ∉ field) (rest : List UInt8) :
    cutAt sep (field ++ sep :: rest) = some (field, rest) := by
  induction field with
  | nil => simp [cutAt]
  | cons c field ih =>
      rw [List.mem_cons, not_or] at h
      rw [List.cons_append, cutAt, if_neg (Ne.symm h.1), ih h.2]
      rfl

theorem cutAt_eq_some_iff {sep : UInt8} {text field rest : List UInt8} :
    cutAt sep text = some (field, rest) ↔ text = field ++ sep :: rest ∧ sep ∉ field := by
  refine ⟨cutAt_eq_some, ?_⟩
  rintro ⟨rfl, hmem⟩
  exact cutAt_append hmem rest

/-- A beginning that has a field has the whole text's. -/
theorem field_of_begins {sep : UInt8} {field field' rest rest' : List UInt8} (h : sep ∉ field)
    (h' : sep ∉ field') (hbegins : field ++ sep :: rest <+: field' ++ sep :: rest') :
    field = field' ∧ rest <+: rest' := by
  obtain ⟨more, heq⟩ := hbegins
  rw [List.append_assoc, List.cons_append] at heq
  have hcut := cutAt_append h (rest ++ more)
  rw [heq, cutAt_append h'] at hcut
  obtain ⟨hfield, hrest⟩ := Prod.mk.inj (Option.some.inj hcut)
  exact ⟨hfield.symm, more, hrest.symm⟩

/-! ## Decimal numbers -/

/-- A natural number in decimal. -/
def decimal (n : ℕ) : List UInt8 := digitsOf 1 n

/-- Reads digits on top of `value`, up to `limit`. -/
def parseDigits (limit : ℕ) : ℕ → List UInt8 → Option ℕ
  | value, [] => some value
  | value, c :: rest =>
      if isDigit c then
        let value := value * 10 + (c.toNat - 48)
        if limit < value then none else parseDigits limit value rest
      else none

/-- A decimal number of at least one digit, up to `limit`. -/
def parseDecimal (limit : ℕ) (text : List UInt8) : Option ℕ :=
  if text.isEmpty then none else parseDigits limit 0 text

/-- What is read on top of a value: digits only, and never above the limit. -/
theorem parseDigits_eq_some_iff {limit n : ℕ} {text : List UInt8} :
    ∀ {value : ℕ}, value ≤ limit → (parseDigits limit value text = some n ↔
      (∀ c ∈ text, isDigit c = true) ∧ value * 10 ^ text.length + valueOf text = n ∧
        n ≤ limit) := by
  induction text with
  | nil =>
      intro value hvalue
      simp only [parseDigits, List.not_mem_nil, false_imp_iff, implies_true, true_and,
        List.length_nil, pow_zero, Nat.mul_one, valueOf_nil, Nat.add_zero, Option.some.injEq]
      exact ⟨fun h => ⟨h, h ▸ hvalue⟩, And.left⟩
  | cons c rest ih =>
      intro value hvalue
      have hcons : value * 10 ^ (c :: rest).length + valueOf (c :: rest) =
          (value * 10 + (c.toNat - 48)) * 10 ^ rest.length + valueOf rest := by
        rw [← List.singleton_append, valueOf_append, List.length_append, pow_add, valueOf,
          List.length_singleton, List.foldl_cons, List.foldl_nil]
        ring
      have hgrows : value * 10 + (c.toNat - 48) ≤
          (value * 10 + (c.toNat - 48)) * 10 ^ rest.length + valueOf rest :=
        Nat.le_add_right_of_le (Nat.le_mul_of_pos_right _ (by positivity))
      rw [parseDigits, hcons, List.forall_mem_cons]
      by_cases hdigit : isDigit c = true
      · rw [if_pos hdigit]
        dsimp only
        split_ifs with hover
        · -- the value only grows, so that it is too large in the end as well
          refine ⟨nofun, ?_⟩
          rintro ⟨-, rfl, hlimit⟩
          exact absurd (hgrows.trans hlimit) (not_le.mpr hover)
        · rw [ih (not_lt.mp hover)]
          simp only [hdigit, true_and]
      · rw [if_neg hdigit]
        simp only [hdigit, false_and, reduceCtorEq, Bool.false_eq_true]

/-- **What is read as a number**: a run of digits, at least one, of that value. -/
theorem parseDecimal_eq_some_iff {limit n : ℕ} {text : List UInt8} :
    parseDecimal limit text = some n ↔
      text ≠ [] ∧ (∀ c ∈ text, isDigit c = true) ∧ valueOf text = n ∧ n ≤ limit := by
  rw [parseDecimal]
  cases text with
  | nil => simp
  | cons c rest =>
      rw [if_neg (by simp), parseDigits_eq_some_iff (Nat.zero_le limit)]
      simp

theorem decimal_ne_nil (n : ℕ) : decimal n ≠ [] := by
  intro h
  have hlength := congrArg List.length h
  simp only [decimal, digitsOf, List.length_append, List.length_replicate, List.length_nil]
    at hlength
  omega

/-- A number has no byte but digits. -/
theorem isDigit_of_mem_decimal {n : ℕ} {c : UInt8} (h : c ∈ decimal n) : isDigit c = true :=
  isDigit_of_mem_digitsOf h

/-- A number that is written is read back. -/
theorem parseDecimal_decimal {limit n : ℕ} (h : n ≤ limit) :
    parseDecimal limit (decimal n) = some n :=
  parseDecimal_eq_some_iff.mpr
    ⟨decimal_ne_nil n, fun _ hc => isDigit_of_mem_decimal hc, valueOf_digitsOf 1 n, h⟩

theorem notMem_decimal {n : ℕ} {c : UInt8} (h : isDigit c = false) :
    c ∉ decimal n := by
  intro hmem
  rw [isDigit_of_mem_decimal hmem] at h
  cases h

end TextFields
