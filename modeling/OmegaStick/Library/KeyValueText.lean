import OmegaStick.Library.TextFields

/-!
# Files of `key=value` lines

A file of lines `key=value`, read into a map in which a later line of a key wins.  A
value that holds a newline leaves further lines in the file, and some of them may be
lines of a key: its strays.  What is read under a key is the last stray of that key
behind its own line, and without one the first line of its value (`lookup_entries`).
-/

namespace KeyValueText

open TextFields

abbrev Bytes := List UInt8

/-- A key and its value. -/
abbrev Entry := Bytes × Bytes

/-- The line of an entry. -/
def entryText (e : Entry) : Bytes := e.1 ++ 61 :: (e.2 ++ [10])

/-- The entries a text is read as; a line without a separator is none. -/
def assignments (text : Bytes) : List Entry := (lines text).filterMap (cutAt 61)

/-- The value under a key, from the last of its entries. -/
def lookup (key : Bytes) : List Entry → Option Bytes
  | [] => none
  | e :: rest => (lookup key rest).or (if e.1 = key then some e.2 else none)

/-- What a value that holds newlines leaves behind its first line. -/
def strays (value : Bytes) : List Entry :=
  match cutAt 10 value with
  | none => []
  | some (_, rest) => assignments (rest ++ [10])

def firstLine (value : Bytes) : Bytes :=
  match cutAt 10 value with
  | none => value
  | some (first, _) => first

/-! ## Reading -/

theorem lines_append (text rest : Bytes) :
    lines (text ++ 10 :: rest) = lines (text ++ [10]) ++ lines rest := by
  induction text with
  | nil => simp [lines]
  | cons c text ih =>
      rw [List.cons_append, List.cons_append, lines, lines, ih]
      split_ifs with hc
      · rfl
      · cases hlines : lines (text ++ [10]) with
        | nil =>
            -- an ended text has a line
            have hne : lines (text ++ [10]) ≠ [] := by
              cases text with
              | nil => simp [lines]
              | cons b more =>
                  rw [List.cons_append, lines]
                  split_ifs
                  · exact List.cons_ne_nil _ _
                  · split <;> exact List.cons_ne_nil _ _
            exact absurd hlines hne
        | cons line more => rfl

theorem assignments_append (text rest : Bytes) :
    assignments (text ++ 10 :: rest) = assignments (text ++ [10]) ++ assignments rest := by
  rw [assignments, lines_append, List.filterMap_append]
  rfl

theorem lookup_append (key : Bytes) (first second : List Entry) :
    lookup key (first ++ second) = (lookup key second).or (lookup key first) := by
  induction first with
  | nil => simp [lookup]
  | cons e rest ih => rw [List.cons_append, lookup, ih, lookup, Option.or_assoc]

theorem lookup_eq_none {key : Bytes} {entries : List Entry}
    (h : ∀ e ∈ entries, e.1 ≠ key) : lookup key entries = none := by
  induction entries with
  | nil => rfl
  | cons e rest ih =>
      obtain ⟨hne, hrest⟩ := List.forall_mem_cons.mp h
      rw [lookup, ih hrest, if_neg hne]
      rfl

/-! ## What was written -/

theorem cutAt_eq_none_iff {sep : UInt8} {text : Bytes} : cutAt sep text = none ↔ sep ∉ text := by
  induction text with
  | nil => simp [cutAt]
  | cons c rest ih =>
      rw [cutAt, List.mem_cons, not_or]
      by_cases hc : c = sep
      · rw [if_pos hc]
        exact ⟨fun h => absurd h (Option.some_ne_none _), fun h => absurd hc.symm h.1⟩
      · rw [if_neg hc, Option.map_eq_none_iff, ih]
        exact ⟨fun h => ⟨Ne.symm hc, h⟩, And.right⟩

/-- A value without a newline leaves nothing else. -/
theorem strays_eq_nil {value : Bytes} (h : 10 ∉ value) : strays value = [] := by
  rw [strays, cutAt_eq_none_iff.mpr h]

theorem firstLine_eq_self {value : Bytes} (h : 10 ∉ value) : firstLine value = value := by
  rw [firstLine, cutAt_eq_none_iff.mpr h]

theorem assignments_line {key first : Bytes} (hkey : 10 ∉ key ∧ 61 ∉ key) (hfirst : 10 ∉ first) :
    assignments (key ++ 61 :: (first ++ [10])) = [(key, first)] := by
  have hline : 10 ∉ key ++ 61 :: first := by
    rw [List.mem_append, List.mem_cons]
    rintro (h | h | h)
    · exact hkey.1 h
    · cases h
    · exact hfirst h
  have htext : key ++ 61 :: (first ++ [10]) = (key ++ 61 :: first) ++ 10 :: [] := by simp
  rw [htext, assignments, lines_append_newline hline, lines, List.filterMap_cons,
    cutAt_append hkey.2]
  rfl

/-- One entry is read as the first line of its value, and its strays. -/
theorem assignments_entryText {e : Entry} (hkey : 10 ∉ e.1 ∧ 61 ∉ e.1) :
    assignments (entryText e) = (e.1, firstLine e.2) :: strays e.2 := by
  obtain ⟨key, value⟩ := e
  rw [entryText, firstLine, strays]
  cases hcut : cutAt 10 value with
  | none => exact assignments_line hkey (cutAt_eq_none_iff.mp hcut)
  | some found =>
      obtain ⟨first, rest⟩ := found
      obtain ⟨rfl, hfirst⟩ := cutAt_eq_some hcut
      have htext : key ++ 61 :: (first ++ 10 :: rest ++ [10]) =
          (key ++ 61 :: first) ++ 10 :: (rest ++ [10]) := by simp
      have hopen : key ++ 61 :: first ++ [10] = key ++ 61 :: (first ++ [10]) := by simp
      rw [htext, assignments_append, hopen, assignments_line hkey hfirst]
      rfl

section Entries

variable {entries : List Entry}

/-- The keys hold neither newline nor separator. -/
def PlainKeys (entries : List Entry) : Prop := ∀ e ∈ entries, 10 ∉ e.1 ∧ 61 ∉ e.1

theorem assignments_entries (h : PlainKeys entries) :
    assignments (entries.flatMap entryText) =
      entries.flatMap fun e => (e.1, firstLine e.2) :: strays e.2 := by
  induction entries with
  | nil => rfl
  | cons e rest ih =>
      obtain ⟨hkey, hrest⟩ := List.forall_mem_cons.mp h
      have htext : entryText e ++ rest.flatMap entryText =
          (e.1 ++ 61 :: e.2) ++ 10 :: rest.flatMap entryText := by simp [entryText]
      have hopen : e.1 ++ 61 :: e.2 ++ [10] = entryText e := by simp [entryText]
      rw [List.flatMap_cons, List.flatMap_cons, htext, assignments_append, hopen,
        assignments_entryText hkey, ih hrest]

/-- The strays of all values, in the order of the file. -/
def allStrays (entries : List Entry) : List Entry := entries.flatMap fun e => strays e.2

theorem allStrays_cons (e : Entry) (rest : List Entry) :
    allStrays (e :: rest) = strays e.2 ++ allStrays rest := List.flatMap_cons ..

/-- Entries of other keys add their strays only. -/
theorem lookup_of_notMem {key : Bytes} (h : ∀ e ∈ entries, e.1 ≠ key) :
    lookup key (entries.flatMap fun e => (e.1, firstLine e.2) :: strays e.2) =
      lookup key (allStrays entries) := by
  induction entries with
  | nil => rfl
  | cons e rest ih =>
      obtain ⟨hne, hrest⟩ := List.forall_mem_cons.mp h
      rw [List.flatMap_cons, lookup_append, ih hrest, allStrays_cons, lookup_append, lookup,
        if_neg hne, Option.or_none]

/-- **What is read under a key**: its last stray behind its own line, and else the first
line of its value. -/
theorem lookup_entries {key value : Bytes} {before after : List Entry}
    (hplain : PlainKeys (before ++ (key, value) :: after)) (hafter : ∀ e ∈ after, e.1 ≠ key) :
    lookup key (assignments ((before ++ (key, value) :: after).flatMap entryText)) =
      some ((lookup key (allStrays ((key, value) :: after))).getD (firstLine value)) := by
  have hown : lookup key ((key, firstLine value) :: strays value) =
      some ((lookup key (strays value)).getD (firstLine value)) := by
    rw [lookup, if_pos rfl]
    cases lookup key (strays value) <;> rfl
  rw [assignments_entries hplain, List.flatMap_append, List.flatMap_cons, lookup_append,
    lookup_append, lookup_of_notMem hafter, hown, allStrays_cons, lookup_append]
  cases lookup key (allStrays after) <;> rfl

end Entries

end KeyValueText
