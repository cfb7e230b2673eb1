import OmegaStick.Simulator.Grammar

/-!
# The writer, and the way back

`Value::dump` writes no white space, escapes what a string may not hold as it is, and
prints the whole numbers below 10^15 digit by digit.  `parseValue_dump` reads each such
value back; with `exists_parse_iff` it says what the simulator's JSON is.
-/

namespace OmegaStick

open DecimalText (digitsOf)
open JsonGrammar
open Utf16 (bytes)

namespace SimJson

variable {D : Type}

/-! ## The writer -/

/-- One byte in `append_escaped`. -/
def escapeByte (c : UInt8) : List UInt8 :=
  if c = 34 then [92, 34]
  else if c = 92 then [92, 92]
  else if c = 10 then [92, 110]
  else if c = 13 then [92, 114]
  else if c = 9 then [92, 116]
  else if c < 0x20 then
    [92, 117, hexByte (c.toNat / 0x1000 % 0x10), hexByte (c.toNat / 0x100 % 0x10),
      hexByte (c.toNat / 0x10 % 0x10), hexByte (c.toNat % 0x10)]
  else [c]

def appendEscaped (s : List UInt8) : List UInt8 := 34 :: (s.flatMap escapeByte ++ [34])

variable [DoubleText D]

/-- `n == std::floor(n) && std::fabs(n) < 1e15` -/
def IsWholeBelow (q : ℚ) : Prop := q = ⌊q⌋ ∧ |q| < 10 ^ 15

instance (q : ℚ) : Decidable (IsWholeBelow q) := inferInstanceAs (Decidable (_ ∧ _))

variable [DoublePrint D]

def appendNumber (n : D) : List UInt8 :=
  match DoubleText.value n with
  | none => bytes "null"
  | some q =>
      -- `%.0f` prints the sign of a zero
      if IsWholeBelow q then (if DoublePrint.signbit n then [45] else []) ++ digitsOf 1 ⌊|q|⌋₊
      else DoublePrint.print10g n

def dump : Value D → List UInt8 :=
  Json.Fold.run
    { null := bytes "null"
      bool b := bytes (if b then "true" else "false")
      number := appendNumber
      string := appendEscaped
      array items := 91 :: (items.separated 44 ++ [93])
      object members :=
        123 :: ((members.map fun m => appendEscaped m.1 ++ 58 :: m.2).separated 44 ++ [125]) }

/-- A member as `dump` writes it. -/
def dumpMember (m : List UInt8 × Value D) : List UInt8 := appendEscaped m.1 ++ 58 :: dump m.2

theorem dump_number (n : D) : dump (.number n) = appendNumber n := by
  rw [dump, Json.Fold.run_number]

theorem dump_string (s : List UInt8) : dump (.string s : Value D) = appendEscaped s := by
  rw [dump, Json.Fold.run_string]

theorem dump_array (items : List (Value D)) :
    dump (.array items) = 91 :: ((items.map dump).separated 44 ++ [93]) := by
  rw [dump, Json.Fold.run_array]

theorem dump_object (members : List (List UInt8 × Value D)) :
    dump (.object members) = 123 :: ((members.map dumpMember).separated 44 ++ [125]) := by
  rw [dump, Json.Fold.run_object]
  change 123 :: (List.separated 44 ((members.map _).map _) ++ [125]) = _
  rw [List.map_map]
  rfl

/-! ## Strings -/

section Strings

omit [DoubleText D] [DoublePrint D]

/-- One byte is read back, in one round of the loop. -/
theorem stringLoop_escapeByte (c : UInt8) (fuel : ℕ) (out text : List UInt8) :
    stringLoop (fuel + 1) out (escapeByte c ++ text) = stringLoop fuel (out ++ [c]) text := by
  unfold escapeByte
  by_cases hquote : c = 34
  · rw [if_pos hquote, hquote]
    rfl
  by_cases hslash : c = 92
  · rw [if_neg hquote, if_pos hslash, hslash]
    rfl
  by_cases hn : c = 10
  · rw [if_neg hquote, if_neg hslash, if_pos hn, hn]
    rfl
  by_cases hr : c = 13
  · rw [if_neg hquote, if_neg hslash, if_neg hn, if_pos hr, hr]
    rfl
  by_cases ht : c = 9
  · rw [if_neg hquote, if_neg hslash, if_neg hn, if_neg hr, if_pos ht, ht]
    rfl
  rw [if_neg hquote, if_neg hslash, if_neg hn, if_neg hr, if_neg ht]
  by_cases hcontrol : c < 0x20
  · have hlt : c.toNat < 0x20 := hcontrol
    have hhex := parseUnicode_of_lt
      (parseHex4_hexBytes (hlt.trans (by decide)) text) hlt
    rw [UInt8.ofNat_toNat] at hhex
    have hread : parseEscape ([117, hexByte (c.toNat / 0x1000 % 0x10),
        hexByte (c.toNat / 0x100 % 0x10), hexByte (c.toNat / 0x10 % 0x10),
        hexByte (c.toNat % 0x10)] ++ text) = .ok ([c], text) := hhex
    rw [if_pos hcontrol]
    exact stringLoop_of_escape hread (Nat.succ_pos fuel) out
  · rw [if_neg hcontrol]
    have hraw := stringLoop_append [c]
      (by simpa using ⟨UInt8.not_lt.mp hcontrol, hquote, hslash⟩) fuel out text
    rwa [List.length_singleton, Nat.add_comm] at hraw

theorem stringLoop_escaped (s : List UInt8) {fuel : ℕ} (hfuel : s.length < fuel)
    (out text : List UInt8) :
    stringLoop fuel out (s.flatMap escapeByte ++ 34 :: text) = .ok (out ++ s, text) := by
  induction s generalizing fuel out with
  | nil =>
      obtain ⟨left, rfl⟩ : ∃ left, fuel = left + 1 := ⟨fuel - 1, by omega⟩
      rw [List.append_nil]
      exact if_pos rfl
  | cons c rest ih =>
      rw [List.length_cons] at hfuel
      obtain ⟨left, rfl⟩ : ∃ left, fuel = left + 1 := ⟨fuel - 1, by omega⟩
      rw [List.flatMap_cons, List.append_assoc, stringLoop_escapeByte, ih (by omega),
        List.append_assoc, List.singleton_append]

theorem length_escapeByte (c : UInt8) : 1 ≤ (escapeByte c).length := by
  unfold escapeByte
  split_ifs <;> simp

theorem length_le_escaped (s : List UInt8) : s.length ≤ (s.flatMap escapeByte).length := by
  induction s with
  | nil => exact Nat.zero_le _
  | cons c rest ih =>
      rw [List.flatMap_cons, List.length_append, List.length_cons]
      have := length_escapeByte c
      omega

theorem parseString_appendEscaped (s text : List UInt8) :
    parseString (appendEscaped s ++ text) = .ok (s, text) := by
  rw [appendEscaped, List.cons_append, List.append_assoc, parseString, consume_cons]
  have hlength := length_le_escaped s
  exact stringLoop_escaped s (by rw [List.length_append]; omega) [] text

theorem starts_appendEscaped (s : List UInt8) : Starts (appendEscaped s) :=
  ⟨34, _, rfl, not_isSpace_of_mark (.inl rfl), by decide⟩

end Strings

/-! ## Numbers -/

/-- The double is a whole number that is printed digit by digit. -/
def WholeBelow (n : D) : Prop := ∃ q, DoubleText.value n = some q ∧ IsWholeBelow q

section Numbers

omit [DoubleText D] [DoublePrint D]

theorem exists_natAbs {q : ℚ} (h : IsWholeBelow q) :
    ∃ z : ℤ, q = z ∧ ⌊|q|⌋₊ = z.natAbs ∧ z.natAbs < 10 ^ 15 := by
  obtain ⟨hwhole, hlt⟩ := h
  have hcast : |q| = ((⌊q⌋.natAbs : ℕ) : ℚ) := by
    rw [Nat.cast_natAbs, Int.cast_abs, ← hwhole]
  refine ⟨⌊q⌋, hwhole, ?_, ?_⟩
  · rw [hcast, Nat.floor_natCast]
  · rw [hcast] at hlt
    exact_mod_cast hlt

end Numbers

theorem appendNumber_eq {n : D} {q : ℚ} (hvalue : DoubleText.value n = some q)
    (hq : IsWholeBelow q) :
    appendNumber n = (Json.Numeral.signed (DoublePrint.signbit n) ⌊|q|⌋₊).text := by
  rw [appendNumber, hvalue, Json.Numeral.text_signed]
  exact if_pos hq

/-- The number that is read has the value and the sign of the one that was written. -/
theorem strtod_appendNumber [LawfulDoublePrint D] {n : D} (h : WholeBelow n) :
    DoubleText.strtod (appendNumber n) = n := by
  obtain ⟨q, hvalue, hq⟩ := h
  obtain ⟨z, rfl, hfloor, hlt⟩ := exists_natAbs hq
  rw [appendNumber_eq hvalue hq, hfloor]
  refine LawfulDoublePrint.eq_of_value
    ((LawfulDoublePrint.value_strtod_signed _ hlt).trans ?_) hvalue
    (LawfulDoublePrint.signbit_strtod_signed _ hlt)
  congr 1
  rcases lt_trichotomy z 0 with hneg | rfl | hpos
  · rw [LawfulDoublePrint.signbit_of_neg hvalue (by exact_mod_cast hneg), if_pos rfl,
      Nat.cast_natAbs, abs_of_neg hneg, Int.cast_neg, neg_neg]
  · simp
  · rw [LawfulDoublePrint.signbit_of_pos hvalue (by exact_mod_cast hpos), if_neg (by decide),
      Nat.cast_natAbs, abs_of_pos hpos]

/-! ## Containers -/

section Containers

variable {parseItem : List UInt8 → Parsed (Value D × List UInt8)}

theorem separated_cons_cons {α : Type} (separator : α) (text next : List α)
    (rest : List (List α)) : (text :: next :: rest).separated separator =
      text ++ separator :: (next :: rest).separated separator := by
  simp [List.separated]

/-- The value is read back from its text, which no white space precedes. -/
def Restores (parseItem : List UInt8 → Parsed (Value D × List UInt8)) (v : Value D) : Prop :=
  ReadsAs parseItem (dump v) v ∧ Starts (dump v)

theorem arrayLoop_dump {item : Value D} {rest : List (Value D)}
    (h : ∀ v ∈ item :: rest, Restores parseItem v) {fuel : ℕ} (hfuel : rest.length < fuel)
    (items : List (Value D)) (after : List UInt8) :
    arrayLoop parseItem fuel items
        (((item :: rest).map dump).separated 44 ++ 93 :: after) =
      .ok (.array (items ++ item :: rest), after) := by
  induction rest generalizing item fuel items with
  | nil =>
      obtain ⟨left, rfl⟩ : ∃ left, fuel = left + 1 := ⟨fuel - 1, by omega⟩
      obtain ⟨hread, hstarts⟩ := h item List.mem_cons_self
      have hround := arrayLoop_round ws_nil ws_nil hread hstarts (.inr rfl) left items after
      simpa [List.separated] using hround
  | cons next rest ih =>
      rw [List.length_cons] at hfuel
      obtain ⟨left, rfl⟩ : ∃ left, fuel = left + 1 := ⟨fuel - 1, by omega⟩
      obtain ⟨⟨hread, hstarts⟩, hrest⟩ := List.forall_mem_cons.mp h
      have hround := arrayLoop_round ws_nil ws_nil hread hstarts (.inl rfl) left items
        (((next :: rest).map dump).separated 44 ++ 93 :: after)
      rw [List.map_cons, List.map_cons, separated_cons_cons, ← List.map_cons, List.append_assoc,
        List.cons_append]
      refine hround.trans ?_
      rw [if_pos rfl, ih hrest (by omega), List.append_assoc]
      rfl

theorem separated_length_le (texts : List (List UInt8)) :
    texts.length ≤ (texts.separated 44).length + 1 := by
  cases texts with
  | nil => exact Nat.zero_le _
  | cons text rest =>
      have hlength : rest.length ≤ (rest.flatMap (44 :: ·)).length := by
        induction rest with
        | nil => exact le_rfl
        | cons next rest ih =>
            rw [List.flatMap_cons, List.length_append, List.length_cons, List.length_cons]
            omega
      rw [List.separated, List.length_append, List.length_cons]
      omega

theorem parseArray_dump {items : List (Value D)} (h : ∀ v ∈ items, Restores parseItem v)
    (after : List UInt8) :
    parseArray parseItem ((items.map dump).separated 44 ++ 93 :: after) =
      .ok (.array items, after) := by
  cases items with
  | nil => rfl
  | cons item rest =>
      obtain ⟨c, more, htext, hc, hne, -⟩ := (h item List.mem_cons_self).2
      have hlength := separated_length_le ((item :: rest).map dump)
      have hskip : skipWs (((item :: rest).map dump).separated 44 ++ 93 :: after) =
          ((item :: rest).map dump).separated 44 ++ 93 :: after := by
        rw [List.map_cons, List.separated, htext]
        exact skipWs_cons hc _
      have hopen : consume 93 (((item :: rest).map dump).separated 44 ++ 93 :: after) = none := by
        rw [List.map_cons, List.separated, htext]
        exact if_neg hne
      rw [parseArray, hskip, hopen]
      rw [List.length_map, List.length_cons] at hlength
      exact arrayLoop_dump h (by rw [List.length_append, List.length_cons]; omega) [] after

omit [DoubleText D] [DoublePrint D] in
/-- The key is none of those that were read. -/
theorem set_of_nodup {m : List UInt8 × Value D} {members rest : List (List UInt8 × Value D)}
    (hkeys : ((members ++ m :: rest).map Prod.fst).Nodup) :
    set m.1 m.2 members = members ++ [m] := by
  refine set_of_notMem (fun hmem => ?_) m.2
  rw [List.map_append, List.map_cons, List.nodup_append] at hkeys
  exact hkeys.2.2 _ hmem _ List.mem_cons_self rfl

theorem objectLoop_dump {m : List UInt8 × Value D} {rest : List (List UInt8 × Value D)}
    (h : ∀ m' ∈ m :: rest, Restores parseItem m'.2) {fuel : ℕ} (hfuel : rest.length < fuel)
    {members : List (List UInt8 × Value D)}
    (hkeys : ((members ++ m :: rest).map Prod.fst).Nodup) (after : List UInt8) :
    objectLoop parseItem fuel members
        (((m :: rest).map dumpMember).separated 44 ++ 125 :: after) =
      .ok (.object (members ++ m :: rest), after) := by
  induction rest generalizing m fuel members with
  | nil =>
      obtain ⟨left, rfl⟩ : ∃ left, fuel = left + 1 := ⟨fuel - 1, by omega⟩
      obtain ⟨hread, hstarts⟩ := h m List.mem_cons_self
      have hround := objectLoop_round ws_nil ws_nil (starts_appendEscaped m.1)
        (parseString_appendEscaped m.1) ws_nil ws_nil hread hstarts (.inr rfl) left members after
      rw [set_of_nodup hkeys] at hround
      simpa [List.separated, dumpMember] using hround
  | cons next rest ih =>
      rw [List.length_cons] at hfuel
      obtain ⟨left, rfl⟩ : ∃ left, fuel = left + 1 := ⟨fuel - 1, by omega⟩
      obtain ⟨⟨hread, hstarts⟩, hrest⟩ := List.forall_mem_cons.mp h
      have hround := objectLoop_round ws_nil ws_nil (starts_appendEscaped m.1)
        (parseString_appendEscaped m.1) ws_nil ws_nil hread hstarts (.inl rfl) left members
        (((next :: rest).map dumpMember).separated 44 ++ 125 :: after)
      rw [if_pos rfl, set_of_nodup hkeys] at hround
      have hkeys' : ((members ++ [m] ++ next :: rest).map Prod.fst).Nodup := by simpa using hkeys
      rw [List.map_cons, List.map_cons, separated_cons_cons, ← List.map_cons, dumpMember]
      refine Eq.trans ?_ (hround.trans ((ih hrest (by omega) hkeys').trans ?_))
      · simp
      · simp

theorem parseObject_dump {members : List (List UInt8 × Value D)}
    (h : ∀ m ∈ members, Restores parseItem m.2) (hkeys : (members.map Prod.fst).Nodup)
    (after : List UInt8) :
    parseObject parseItem ((members.map dumpMember).separated 44 ++ 125 :: after) =
      .ok (.object members, after) := by
  cases members with
  | nil => rfl
  | cons m rest =>
      obtain ⟨c, more, htext, hc, -, hne⟩ := starts_appendEscaped m.1
      have hlength := separated_length_le ((m :: rest).map dumpMember)
      have hskip : skipWs (((m :: rest).map dumpMember).separated 44 ++ 125 :: after) =
          ((m :: rest).map dumpMember).separated 44 ++ 125 :: after := by
        rw [List.map_cons, List.separated, dumpMember, htext]
        exact skipWs_cons hc _
      have hopen : consume 125 (((m :: rest).map dumpMember).separated 44 ++ 125 :: after) =
          none := by
        rw [List.map_cons, List.separated, dumpMember, htext]
        exact if_neg hne
      rw [parseObject, hskip, hopen]
      rw [List.length_map, List.length_cons] at hlength
      have hall : (([] ++ m :: rest).map Prod.fst).Nodup := hkeys
      exact objectLoop_dump h (by rw [List.length_append, List.length_cons]; omega) hall after

end Containers

/-! ## Values -/

/-- What `dump` writes of a value starts it, with no white space in front. -/
theorem starts_dump {v : Value D} (h : ∀ n ∈ v.numbers, WholeBelow n) : Starts (dump v) := by
  cases v with
  | null => exact starts_value 1 (.inl rfl)
  | bool b =>
      cases b with
      | true => exact starts_value 1 (.inr (.inl rfl))
      | false => exact starts_value 1 (.inr (.inr (.inl rfl)))
  | number n =>
      obtain ⟨q, hvalue, hq⟩ := h n (by simp)
      rw [dump_number, appendNumber_eq hvalue hq]
      exact starts_value 1 (.inr (.inr (.inr (.inl ⟨_, rfl⟩))))
  | string s =>
      rw [dump_string]
      exact starts_appendEscaped s
  | array items =>
      rw [dump_array]
      exact ⟨91, _, rfl, by unfold IsSpace; decide, by decide⟩
  | object members =>
      rw [dump_object]
      exact ⟨123, _, rfl, by unfold IsSpace; decide, by decide⟩

/-- **What is written is read back.**  The induction is on the levels that may open. -/
theorem parseValue_dump [LawfulDoublePrint D] {levels : ℕ} {v : Value D} (hfits : v.Fits levels)
    (hkeys : v.distinctKeys = true) (hnumbers : ∀ n ∈ v.numbers, WholeBelow n) :
    ReadsAs (parseValue levels) (dump v) v := by
  induction levels generalizing v with
  | zero => cases v <;> exact hfits.elim
  | succ levels ih =>
      intro after hafter
      cases v with
      | null =>
          rw [dump, Json.Fold.run_null]
          exact parseValue_null levels after
      | bool b =>
          rw [dump, Json.Fold.run_bool]
          exact parseValue_bool levels b after
      | number n =>
          have hn := hnumbers n (by simp)
          -- what `appendNumber` writes, `strtod` reads as the same value
          have hstrtod := strtod_appendNumber hn
          obtain ⟨q, hvalue, hq⟩ := hn
          rw [appendNumber_eq hvalue hq] at hstrtod
          rw [dump_number, appendNumber_eq hvalue hq, parseValue_number levels _ hafter, hstrtod]
      | string s =>
          rw [dump_string, appendEscaped, List.cons_append, parseValue, if_neg (by decide),
            if_neg (by decide), if_pos rfl, ← List.cons_append, ← appendEscaped,
            parseString_appendEscaped]
          rfl
      | array items =>
          -- the items are written one after the other, one level down
          have hitems : ∀ v ∈ items, Restores (parseValue levels) v := by
            intro v hv
            have hnumbers' : ∀ n ∈ v.numbers, WholeBelow n := fun n hn =>
              hnumbers n (Json.mem_numbers_array.mpr ⟨v, hv, hn⟩)
            exact ⟨ih (hfits v hv) (Json.distinctKeys_array.mp hkeys v hv) hnumbers',
              starts_dump hnumbers'⟩
          rw [dump_array, List.cons_append, List.append_assoc, parseValue, if_neg (by decide),
            if_pos rfl]
          exact parseArray_dump hitems after
      | object members =>
          have hmembers : ∀ m ∈ members, Restores (parseValue levels) m.2 := by
            intro m hm
            have hnumbers' : ∀ n ∈ m.2.numbers, WholeBelow n := fun n hn =>
              hnumbers n (Json.mem_numbers_object.mpr ⟨m, hm, hn⟩)
            exact ⟨ih (hfits m hm) ((Json.distinctKeys_object.mp hkeys).2 m hm) hnumbers',
              starts_dump hnumbers'⟩
          rw [dump_object, List.cons_append, List.append_assoc, parseValue, if_pos rfl]
          exact parseObject_dump hmembers (Json.distinctKeys_object.mp hkeys).1 after

theorem parse_dump [LawfulDoublePrint D] {v : Value D} (hfits : v.Fits (kMaxDepth + 1))
    (hkeys : v.distinctKeys = true) (hnumbers : ∀ n ∈ v.numbers, WholeBelow n) :
    parse (dump v) = .ok v := by
  have hread := parseValue_dump hfits hkeys hnumbers [] ends_nil
  obtain ⟨c, more, htext, hc, -⟩ := starts_dump hnumbers
  have hskip : skipWs (dump v) = dump v := by
    rw [htext]
    exact skipWs_cons hc _
  rw [List.append_nil] at hread
  have hrun : run (dump v) = .ok v := by
    rw [run, hskip, hread]
    rfl
  rw [parse, hrun]

/-- The parser takes exactly the texts of the grammar, and what `dump` writes of a value
comes back from it. -/
theorem grammar_and_roundTrip [LawfulDoublePrint D] :
    (∀ text, (∃ v : Value D, parse text = .ok v) ↔ IsText kMaxDepth text) ∧
      ∀ v : Value D, v.Fits (kMaxDepth + 1) → v.distinctKeys = true →
        (∀ n ∈ v.numbers, WholeBelow n) → parse (dump v) = .ok v :=
  ⟨fun _ => exists_parse_iff, fun _ hfits hkeys hnumbers => parse_dump hfits hkeys hnumbers⟩

section Sample

/-- Two members: a list with a negative zero and a string of odd bytes, and a flag. -/
def sampleValue : Value WholeDouble :=
  .object [(bytes "b", .array [.number ⟨true, 0⟩, .string [0, 34, 92, 255], .array []]),
    (bytes "a", .bool true)]

theorem wholeBelow_sample : ∀ n ∈ sampleValue.numbers, WholeBelow n := by
  have hnumbers : sampleValue.numbers = [⟨true, 0⟩] := by simp [sampleValue, Json.numbers]
  intro n hn
  rw [hnumbers, List.mem_singleton] at hn
  exact ⟨0, by rw [hn]; simp [DoubleText.value, WholeDouble.toRat], by simp [IsWholeBelow]⟩

theorem grammar_and_roundTrip_sample :
    ((∃ v : Value WholeDouble, parse (bytes " [1]") = .ok v) ↔ IsText kMaxDepth (bytes " [1]")) ∧
      parse (dump sampleValue) = .ok sampleValue :=
  ⟨grammar_and_roundTrip.1 _, grammar_and_roundTrip.2 sampleValue
    (by simp [sampleValue, kMaxDepth, Json.Fits]) (by simp [sampleValue]; decide)
    wholeBelow_sample⟩

end Sample

end SimJson

end OmegaStick
