import OmegaStick.Firmware.ResetLogPowerCut

/-!
# The lines of a reset log

A file's log is what its lines say one by one: `read_eq` reads every line apart
from the others.  `EntryLine` says what a well-formed entry line is in either of
the two formats, and `lineEntry_iff` that exactly these yield an entry.  What is read
from a text with carriage returns only at its line ends can be written again, so
that a save and a load give the same log (`read_text_read`).
-/

namespace OmegaStick

open FileM TextFields DecimalText

namespace ResetLog

/-! ## One line -/

/-- A line without the carriage return it may end in. -/
def stripReturn (line : List UInt8) : List UInt8 :=
  if line.getLast? = some 13 then line.dropLast else line

/-- The boot count a line gives. -/
def lineCount (line : List UInt8) : Option UInt32 :=
  (cutAt 61 (stripReturn line)).bind fun (key, value) =>
    if key = ascii "boot_count" then (parseU32 value).map UInt32.ofNat else none

/-- The entry a line gives. -/
def lineEntry (line : List UInt8) : Option Entry :=
  (cutAt 61 (stripReturn line)).bind fun (key, value) =>
    if key = ascii "entry" then parseEntry value false
    else if key = ascii "entry2" then parseEntry value true
    else none

theorem readLine_eq (log : ResetLog) (line : List UInt8) :
    log.readLine line = { log with
      bootCount := (lineCount line).getD log.bootCount
      entries := log.entries ++ (lineEntry line).toList } := by
  unfold readLine lineCount lineEntry
  have hstrip : (if line.getLast? = some 13 then line.dropLast else line) = stripReturn line :=
    rfl
  rw [hstrip]
  dsimp only
  cases cutAt 61 (stripReturn line) with
  | none => simp
  | some field =>
      obtain ⟨key, value⟩ := field
      dsimp only [Option.bind_some]
      by_cases hcount : key = ascii "boot_count"
      · have hentry : key ≠ ascii "entry" := by rw [hcount]; decide
        have hentry2 : key ≠ ascii "entry2" := by rw [hcount]; decide
        rw [if_pos hcount, if_pos hcount, if_neg hentry, if_neg hentry2]
        cases parseU32 value <;> simp
      rw [if_neg hcount, if_neg hcount]
      by_cases hentry : key = ascii "entry"
      · rw [if_pos hentry, if_pos hentry]
        cases parseEntry value false <;> simp
      rw [if_neg hentry, if_neg hentry]
      by_cases hentry2 : key = ascii "entry2"
      · rw [if_pos hentry2, if_pos hentry2]
        cases parseEntry value true <;> simp
      · rw [if_neg hentry2, if_neg hentry2]
        simp

theorem foldl_readLine_eq (log : ResetLog) (lines : List (List UInt8)) :
    lines.foldl readLine log = { log with
      bootCount := (lines.filterMap lineCount).getLastD log.bootCount
      entries := log.entries ++ lines.filterMap lineEntry } := by
  induction lines generalizing log with
  | nil => simp
  | cons line lines ih =>
      rw [List.foldl_cons, readLine_eq, ih]
      cases hcount : lineCount line <;> cases hentry : lineEntry line <;>
        simp only [hcount, hentry, List.filterMap_cons, Option.getD_none, Option.getD_some,
          Option.toList_none, Option.toList_some, List.getLastD_cons, List.append_nil,
          List.append_assoc, List.singleton_append]

/-- **Every line is read apart from the others**: the boot count is the last one a line
gives, and the entries are those the lines give, down to the newest. -/
theorem read_eq (maxEntries : ℕ) (text : List UInt8) :
    read maxEntries text =
      ⟨maxEntries, ((lines text).filterMap lineCount).getLastD 0,
        newest maxEntries ((lines text).filterMap lineEntry)⟩ := by
  rw [read, foldl_readLine_eq]
  rfl

/-! ## Well-formed lines -/

/-- A decimal number as it may be written, leading zeros and all. -/
structure IsNumeral (text : List UInt8) (n : ℕ) : Prop where
  ne_nil : text ≠ []
  digits : ∀ c ∈ text, isDigit c = true
  value : valueOf text = n

/-- A number that may have a minus sign. -/
inductive IsSigned : List UInt8 → ℤ → Prop where
  | plain {text : List UInt8} {n : ℕ} : IsNumeral text n → IsSigned text n
  | minus {text : List UInt8} {n : ℕ} : IsNumeral text n → IsSigned (45 :: text) (-n)

/-- A slot label of a legacy name: not empty, and free of spaces, commas and parentheses. -/
def IsLabel (label : List UInt8) : Prop := label ≠ [] ∧ ∀ c ∈ label, c ∉ ascii " ,()"

/-- How a legacy name falls into the reason's name and the slot: by the label it ends
in, or else as a whole and with the slot unknown. -/
inductive LegacyName : List UInt8 → List UInt8 → List UInt8 → Prop where
  | labelled {reason label : List UInt8} :
      IsLabel label → LegacyName (reason ++ ascii " (" ++ label ++ ascii ")") reason label
  | plain {name : List UInt8} :
      (∀ reason label, IsLabel label → name ≠ reason ++ ascii " (" ++ label ++ ascii ")") →
        LegacyName name name []

/-- The three fields every entry line begins with. -/
structure IsFields (boot reason abnormal : List UInt8) (entry : Entry) : Prop where
  boot : IsNumeral boot entry.boot.toNat
  reason : IsSigned reason entry.reason ∧ entry.reason.natAbs ≤ int32Max
  abnormal : ∃ n, (IsNumeral abnormal n ∧ n ≤ uint32Max) ∧ entry.abnormal = (n != 0)

/-- A well-formed entry line, without a carriage return. -/
inductive EntryLine : List UInt8 → Entry → Prop where
  | entry {boot reason abnormal name : List UInt8} {entry : Entry} :
      IsFields boot reason abnormal entry → LegacyName name entry.name entry.slot →
        EntryLine (ascii "entry=" ++ boot ++ [44] ++ reason ++ [44] ++ abnormal ++ [44] ++ name)
          entry
  | entry2 {boot reason abnormal : List UInt8} {entry : Entry} :
      IsFields boot reason abnormal entry → 44 ∉ entry.slot →
        EntryLine (ascii "entry2=" ++ boot ++ [44] ++ reason ++ [44] ++ abnormal ++ [44] ++
          entry.slot ++ [44] ++ entry.name) entry

/-! ## What the parsers accept -/

theorem parseU32_iff {text : List UInt8} {n : ℕ} :
    parseU32 text = some n ↔ IsNumeral text n ∧ n ≤ uint32Max := by
  rw [parseU32, parseDecimal_eq_some_iff]
  exact ⟨fun ⟨hne, hdigits, hvalue, hle⟩ => ⟨⟨hne, hdigits, hvalue⟩, hle⟩,
    fun ⟨⟨hne, hdigits, hvalue⟩, hle⟩ => ⟨hne, hdigits, hvalue, hle⟩⟩

theorem IsNumeral.notMem {text : List UInt8} {n : ℕ} (h : IsNumeral text n) {c : UInt8}
    (hc : isDigit c = false) : c ∉ text := fun hmem =>
  Bool.false_ne_true (hc.symm.trans (h.digits c hmem))

theorem IsSigned.notMem {text : List UInt8} {r : ℤ} (h : IsSigned text r) {c : UInt8}
    (hc : isDigit c = false) (hminus : c ≠ 45) : c ∉ text := by
  cases h with
  | plain h => exact h.notMem hc
  | minus h =>
      rw [List.mem_cons, not_or]
      exact ⟨hminus, h.notMem hc⟩

theorem parseInt_iff {text : List UInt8} {r : ℤ} :
    parseInt text = some r ↔ IsSigned text r ∧ r.natAbs ≤ int32Max := by
  have hbound : ∀ {magnitude : ℕ}, magnitude ≤ int32Max → magnitude ≤ uint32Max :=
    fun h => h.trans (by decide)
  -- the magnitude is parsed unsigned and then held to the signed range
  have hparsed : ∀ {digits : List UInt8} {negative : Bool},
      ((parseU32 digits).bind fun magnitude => if int32Max < magnitude then none
        else some (if negative then -(magnitude : ℤ) else magnitude)) = some r ↔
      ∃ n, IsNumeral digits n ∧ n ≤ int32Max ∧ (if negative then -(n : ℤ) else n) = r := by
    intro digits negative
    simp only [Option.bind_eq_some_iff, parseU32_iff, Option.ite_none_left_eq_some, not_lt,
      Option.some.injEq]
    exact ⟨fun ⟨n, ⟨h, _⟩, hle, hr⟩ => ⟨n, h, hle, hr⟩,
      fun ⟨n, h, hle, hr⟩ => ⟨n, ⟨h, hbound hle⟩, hle, hr⟩⟩
  unfold parseInt
  rw [hparsed]
  cases text with
  | nil =>
      constructor
      · rintro ⟨n, h, -⟩
        exact absurd rfl h.ne_nil
      · rintro ⟨h, -⟩
        cases h with
        | plain h => exact absurd rfl h.ne_nil
  | cons c rest =>
      by_cases hc : c = 45
      -- a sign
      · subst hc
        simp only [List.head?_cons, beq_self_eq_true, if_true, List.tail_cons]
        constructor
        · rintro ⟨n, h, hle, rfl⟩
          exact ⟨.minus h, by rwa [Int.natAbs_neg, Int.natAbs_natCast]⟩
        · rintro ⟨h, hle⟩
          cases h with
          | plain h => exact absurd (h.digits 45 List.mem_cons_self) (by decide)
          | minus h => exact ⟨_, h, by rwa [Int.natAbs_neg, Int.natAbs_natCast] at hle, rfl⟩
      -- no sign, so that a rule with a minus does not apply
      · have hhead : ((c :: rest).head? == some 45) = false := by simpa using hc
        rw [hhead]
        simp only [Bool.false_eq_true, if_false]
        constructor
        · rintro ⟨n, h, hle, rfl⟩
          exact ⟨.plain h, by rwa [Int.natAbs_natCast]⟩
        · rintro ⟨h, hle⟩
          cases h with
          | plain h => exact ⟨_, h, by rwa [Int.natAbs_natCast] at hle, rfl⟩
          | minus h => exact absurd rfl hc

theorem lastOpen_eq_some {name before after : List UInt8}
    (h : lastOpen name = some (before, after)) : name = before ++ 32 :: 40 :: after := by
  induction name generalizing before with
  | nil => cases h
  | cons c rest ih =>
      rw [lastOpen] at h
      cases hrest : lastOpen rest with
      | some found =>
          obtain ⟨first, last⟩ := found
          rw [hrest] at h ih
          obtain ⟨rfl, rfl⟩ := Prod.mk.inj (Option.some.inj h)
          rw [ih rfl]
          rfl
      | none =>
          rw [hrest] at h
          dsimp only at h
          split_ifs at h with hopen
          obtain ⟨rfl, rfl⟩ := Prod.mk.inj (Option.some.inj h)
          obtain ⟨rfl, hhead⟩ := hopen
          obtain ⟨second, more, rfl⟩ : ∃ second more, rest = second :: more := by
            cases rest with
            | nil => cases hhead
            | cons second more => exact ⟨second, more, rfl⟩
          cases Option.some.inj hhead
          rfl

theorem lastOpen_of_notMem {text : List UInt8} (h : 32 ∉ text) : lastOpen text = none := by
  induction text with
  | nil => rfl
  | cons c rest ih =>
      rw [List.mem_cons, not_or] at h
      rw [lastOpen, ih h.2]
      exact if_neg fun hopen => h.1 hopen.1.symm

/-- The last opening is the one nothing with a space follows. -/
theorem lastOpen_append (before : List UInt8) {after : List UInt8} (h : 32 ∉ after) :
    lastOpen (before ++ 32 :: 40 :: after) = some (before, after) := by
  induction before with
  | nil =>
      have hrest : lastOpen (40 :: after) = none :=
        lastOpen_of_notMem (by rw [List.mem_cons, not_or]; exact ⟨by decide, h⟩)
      rw [List.nil_append, lastOpen, hrest]
      rfl
  | cons c before ih => rw [List.cons_append, lastOpen, ih]

theorem IsLabel.notMem {label : List UInt8} (h : IsLabel label) {c : UInt8}
    (hc : c ∈ ascii " ,()") : c ∉ label := fun hmem => h.2 c hmem hc

theorem labelled_eq (reason label : List UInt8) :
    reason ++ ascii " (" ++ label ++ ascii ")" = reason ++ 32 :: 40 :: (label ++ [41]) := by
  have hopen : ascii " (" = [32, 40] := by decide
  have hclose : ascii ")" = [41] := by decide
  simp [hopen, hclose]

theorem getLast?_opened (reason label : List UInt8) (last : UInt8) :
    (reason ++ 32 :: 40 :: (label ++ [last])).getLast? = some last := by
  have hconcat : reason ++ 32 :: 40 :: (label ++ [last]) =
      (reason ++ 32 :: 40 :: label) ++ [last] := by simp
  rw [hconcat, List.getLast?_concat]

theorem splitLegacyName_labelled {reason label : List UInt8} (h : IsLabel label) :
    splitLegacyName (reason ++ ascii " (" ++ label ++ ascii ")") = (reason, label) := by
  have hspace : 32 ∉ label ++ [41] := by
    rw [List.mem_append, not_or]
    exact ⟨h.notMem (by decide), by decide⟩
  have hlength : 3 < (reason ++ 32 :: 40 :: (label ++ [41])).length := by
    have hpos := List.length_pos_of_ne_nil h.1
    simp only [List.length_append, List.length_cons, List.length_nil]
    omega
  rw [labelled_eq, splitLegacyName, if_pos ⟨hlength, getLast?_opened reason label 41⟩,
    lastOpen_append reason hspace]
  dsimp only
  rw [List.dropLast_concat]
  exact if_pos h

/-- What is split off is a label the name ends in. -/
theorem splitLegacyName_plain {name : List UInt8}
    (h : ∀ reason label, IsLabel label → name ≠ reason ++ ascii " (" ++ label ++ ascii ")") :
    splitLegacyName name = (name, []) := by
  rw [splitLegacyName]
  split_ifs with hend
  · cases hopen : lastOpen name with
    | none => rfl
    | some found =>
        obtain ⟨reason, rest⟩ := found
        refine if_neg fun hlabel => ?_
        obtain rfl | ⟨label, last, rfl⟩ := List.eq_nil_or_concat rest
        · exact hlabel.1 rfl
        rw [List.concat_eq_append, List.dropLast_concat] at hlabel
        have hname : name = reason ++ 32 :: 40 :: (label ++ [last]) := by
          simpa using lastOpen_eq_some hopen
        have hclose : last = 41 := by
          have hlast := hend.2
          rwa [hname, getLast?_opened, Option.some.injEq] at hlast
        exact h reason label hlabel (by rw [hname, hclose, labelled_eq])
  · rfl

/-- **The label of a legacy name**, as the source splits it off. -/
theorem splitLegacyName_iff {name reason slot : List UInt8} :
    splitLegacyName name = (reason, slot) ↔ LegacyName name reason slot := by
  constructor
  · intro h
    by_cases hlabelled : ∃ reason label, IsLabel label ∧
        name = reason ++ ascii " (" ++ label ++ ascii ")"
    · obtain ⟨first, label, hlabel, rfl⟩ := hlabelled
      rw [splitLegacyName_labelled hlabel] at h
      obtain ⟨rfl, rfl⟩ := Prod.mk.inj h
      exact .labelled hlabel
    · have hplain : ∀ reason label, IsLabel label →
          name ≠ reason ++ ascii " (" ++ label ++ ascii ")" :=
        fun reason label hlabel hname => hlabelled ⟨reason, label, hlabel, hname⟩
      rw [splitLegacyName_plain hplain] at h
      obtain ⟨rfl, rfl⟩ := Prod.mk.inj h
      exact .plain hplain
  · intro h
    cases h with
    | labelled hlabel => exact splitLegacyName_labelled hlabel
    | plain hplain => exact splitLegacyName_plain hplain

/-- The entry fields a parser reads off, and the rest of the line. -/
theorem parseEntry_iff {value : List UInt8} {hasSlot : Bool} {entry : Entry} :
    parseEntry value hasSlot = some entry ↔
      ∃ boot reason abnormal rest,
        value = boot ++ 44 :: (reason ++ 44 :: (abnormal ++ 44 :: rest)) ∧
        IsFields boot reason abnormal entry ∧
        if hasSlot then rest = entry.slot ++ 44 :: entry.name ∧ 44 ∉ entry.slot
        else LegacyName rest entry.name entry.slot := by
  simp only [parseEntry, bind, Option.bind_eq_some_iff, Prod.exists, cutAt_eq_some_iff,
    parseU32_iff, parseInt_iff]
  constructor
  · rintro ⟨boot, rest1, ⟨rfl, -⟩, reason, rest2, ⟨rfl, -⟩, abnormal, rest, ⟨rfl, -⟩, n, hboot,
      r, hreason, a, habnormal, hrest⟩
    have hn : (UInt32.ofNat n).toNat = n := UInt32.toNat_ofNat_of_lt' (Nat.lt_succ_of_le hboot.2)
    -- with a slot the line has one more comma; a legacy name ends in its slot
    cases hasSlot with
    | true =>
        simp only [if_true, Option.bind_eq_some_iff, Prod.exists, cutAt_eq_some_iff, pure,
          Option.some.injEq] at hrest
        obtain ⟨slot, name, ⟨rfl, hslot⟩, rfl⟩ := hrest
        exact ⟨boot, reason, abnormal, _, rfl,
          ⟨by rw [hn]; exact hboot.1, hreason, a, habnormal, rfl⟩, rfl, hslot⟩
    | false =>
        simp only [Bool.false_eq_true, if_false, pure, Option.some.injEq] at hrest
        subst hrest
        exact ⟨boot, reason, abnormal, rest, rfl,
          ⟨by rw [hn]; exact hboot.1, hreason, a, habnormal, rfl⟩, splitLegacyName_iff.mp rfl⟩
  · rintro ⟨boot, reason, abnormal, rest, rfl, hfields, hrest⟩
    obtain ⟨a, habnormal, hflag⟩ := hfields.abnormal
    have hcomma : isDigit 44 = false := by decide
    refine ⟨boot, _, ⟨rfl, hfields.boot.notMem hcomma⟩, reason, _,
      ⟨rfl, hfields.reason.1.notMem hcomma (by decide)⟩, abnormal, _,
      ⟨rfl, habnormal.1.notMem hcomma⟩, entry.boot.toNat,
      ⟨hfields.boot, Nat.le_of_lt_succ entry.boot.toNat_lt⟩, entry.reason, hfields.reason, a,
      habnormal, ?_⟩
    cases hasSlot with
    | true =>
        simp only [if_true] at hrest
        obtain ⟨rfl, hslot⟩ := hrest
        simp only [if_true, cutAt_append hslot, Option.bind_some, pure, ← hflag,
          UInt32.ofNat_toNat]
    | false =>
        simp only [Bool.false_eq_true, if_false] at hrest
        simp only [Bool.false_eq_true, if_false, splitLegacyName_iff.mpr hrest, pure, ← hflag,
          UInt32.ofNat_toNat]

/-- **The lines that give an entry**, in either of the two formats. -/
theorem lineEntry_iff {line : List UInt8} {entry : Entry} :
    lineEntry line = some entry ↔ EntryLine (stripReturn line) entry := by
  have hkey : ascii "entry=" = ascii "entry" ++ [61] := by decide
  have hkey2 : ascii "entry2=" = ascii "entry2" ++ [61] := by decide
  rw [lineEntry]
  constructor
  · intro h
    obtain ⟨⟨key, value⟩, hcut, hparsed⟩ := Option.bind_eq_some_iff.mp h
    obtain ⟨hline, -⟩ := cutAt_eq_some hcut
    dsimp only at hparsed
    rw [hline]
    split_ifs at hparsed with hentry hentry2
    · obtain ⟨boot, reason, abnormal, rest, rfl, hfields, hname⟩ := parseEntry_iff.mp hparsed
      rw [hentry]
      simpa [hkey] using EntryLine.entry hfields (by simpa using hname)
    · obtain ⟨boot, reason, abnormal, rest, rfl, hfields, hrest⟩ := parseEntry_iff.mp hparsed
      simp only [if_true] at hrest
      rw [hentry2, hrest.1]
      simpa [hkey2] using EntryLine.entry2 hfields hrest.2
  · intro h
    generalize stripReturn line = body at h ⊢
    cases h with
    | @entry boot reason abnormal name _ hfields hname =>
        have hbody : ascii "entry=" ++ boot ++ [44] ++ reason ++ [44] ++ abnormal ++ [44] ++ name =
            ascii "entry" ++ 61 :: (boot ++ 44 :: (reason ++ 44 :: (abnormal ++ 44 :: name))) := by
          simp [hkey]
        rw [hbody, cutAt_append (by decide), Option.bind_some]
        exact parseEntry_iff.mpr ⟨boot, reason, abnormal, name, rfl, hfields, by simpa using hname⟩
    | @entry2 boot reason abnormal _ hfields hslot =>
        have hbody : ascii "entry2=" ++ boot ++ [44] ++ reason ++ [44] ++ abnormal ++ [44] ++
            entry.slot ++ [44] ++ entry.name = ascii "entry2" ++ 61 :: (boot ++ 44 :: (reason ++
              44 :: (abnormal ++ 44 :: (entry.slot ++ 44 :: entry.name)))) := by
          simp [hkey2]
        have hneq : ascii "entry2" ≠ ascii "entry" := by decide
        rw [hbody, cutAt_append (by decide), Option.bind_some]
        dsimp only
        rw [if_neg hneq, if_pos rfl]
        exact parseEntry_iff.mpr ⟨boot, reason, abnormal, _, rfl, hfields, by simpa using hslot⟩

/-! ## What is read can be written -/

/-- Every carriage return of a text stands right before a newline. -/
def ReturnsAtLineEnds (text : List UInt8) : Prop :=
  ∀ before after, text = before ++ 13 :: after → after.head? = some 10

/-- Then a line has none but at its end. -/
theorem ReturnsAtLineEnds.lines {text : List UInt8} (h : ReturnsAtLineEnds text) :
    ∀ line ∈ lines text, ∀ before after, line = before ++ 13 :: after → after = [] := by
  induction text with
  | nil => nofun
  | cons c rest ih =>
      have hrest : ReturnsAtLineEnds rest := fun before after heq =>
        h (c :: before) after (by rw [heq]; rfl)
      intro line hline before after heq
      rw [TextFields.lines] at hline
      split_ifs at hline with hc
      · rcases List.mem_cons.mp hline with rfl | hline
        · simp at heq
        · exact ih hrest line hline before after heq
      · cases hmore : TextFields.lines rest with
        | nil =>
            rw [hmore, List.mem_singleton] at hline
            rw [hline] at heq
            cases before with
            | nil => exact (List.cons_eq_cons.mp heq).2.symm
            | cons b before => simp at heq
        | cons first more =>
            rw [hmore] at hline ih
            rcases List.mem_cons.mp hline with rfl | hline
            · cases before with
              | nil =>
                  -- the return is the line's first byte, and ends it as well
                  obtain ⟨rfl, rfl⟩ := List.cons_eq_cons.mp heq
                  obtain ⟨more', hnext⟩ := List.head?_eq_some_iff.mp (h [] rest rfl)
                  rw [hnext, TextFields.lines, if_pos rfl] at hmore
                  exact (List.cons_eq_cons.mp hmore).1.symm
              | cons b before =>
                  exact ih hrest first List.mem_cons_self before after (List.cons_eq_cons.mp heq).2
            · exact ih hrest line (List.mem_cons_of_mem _ hline) before after heq

theorem notMem_stripReturn {line : List UInt8}
    (h : ∀ before after, line = before ++ 13 :: after → after = []) : 13 ∉ stripReturn line := by
  intro hmem
  rw [stripReturn] at hmem
  split_ifs at hmem with hlast
  · obtain ⟨body, rfl⟩ := List.getLast?_eq_some_iff.mp hlast
    rw [List.dropLast_concat] at hmem
    obtain ⟨before, after, rfl⟩ := List.append_of_mem hmem
    have hafter := h before (after ++ [13]) (by simp)
    simp at hafter
  · obtain ⟨before, after, rfl⟩ := List.append_of_mem hmem
    rw [h before after rfl] at hlast
    simp at hlast

theorem mem_stripReturn {line : List UInt8} {c : UInt8} (h : c ∈ stripReturn line) : c ∈ line := by
  rw [stripReturn] at h
  split_ifs at h
  · exact List.mem_of_mem_dropLast h
  · exact h

theorem LegacyName.mem {name reason slot : List UInt8} (h : LegacyName name reason slot)
    (c : UInt8) : (c ∈ reason → c ∈ name) ∧ (c ∈ slot → c ∈ name ∧ c ≠ 44) := by
  cases h with
  | labelled hlabel =>
      simp only [List.mem_append]
      refine ⟨fun hc => .inl (.inl (.inl hc)), fun hc => ⟨.inl (.inr hc), ?_⟩⟩
      rintro rfl
      exact hlabel.notMem (by decide) hc
  | plain => exact ⟨id, nofun⟩

/-- An entry of a line without carriage returns can be written. -/
theorem EntryLine.writable {line : List UInt8} {entry : Entry} (h : EntryLine line entry)
    (hnewline : 10 ∉ line) (hreturn : 13 ∉ line) : entry.Writable := by
  have hlast : ∀ {name : List UInt8}, 13 ∉ name → name.getLast? ≠ some 13 :=
    fun h hlast => h (List.mem_of_getLast? hlast)
  cases h with
  | @entry boot reason abnormal name _ hfields hname =>
      simp only [List.mem_append, not_or] at hnewline hreturn
      refine ⟨hfields.reason.2, ⟨fun hc => hnewline.2 ((hname.mem 10).1 hc),
        hlast fun hc => hreturn.2 ((hname.mem 13).1 hc)⟩, fun c hc => ?_⟩
      obtain ⟨hmem, hcomma⟩ := (hname.mem c).2 hc
      refine ⟨hcomma, ?_, ?_⟩
      · rintro rfl
        exact hnewline.2 hmem
      · rintro rfl
        exact hreturn.2 hmem
  | @entry2 boot reason abnormal _ hfields hslot =>
      simp only [List.mem_append, not_or] at hnewline hreturn
      refine ⟨hfields.reason.2, ⟨hnewline.2, hlast hreturn.2⟩, fun c hc => ⟨?_, ?_, ?_⟩⟩
      · rintro rfl
        exact hslot hc
      · rintro rfl
        exact hnewline.1.1.2 hc
      · rintro rfl
        exact hreturn.1.1.2 hc

theorem writable_read (maxEntries : ℕ) {text : List UInt8} (h : ReturnsAtLineEnds text) :
    (read maxEntries text).Writable where
  entries := by
    intro entry hentry
    rw [read_eq] at hentry
    obtain ⟨line, hline, hgives⟩ := List.mem_filterMap.mp (List.mem_of_mem_drop hentry)
    exact (lineEntry_iff.mp hgives).writable
      (fun hc => newline_notMem_of_mem_lines hline (mem_stripReturn hc))
      (notMem_stripReturn (h.lines line hline))
  length := by
    simp only [read_eq, newest, List.length_drop]
    omega

/-- **Loading, saving and loading again** changes nothing. -/
theorem read_text_read (maxEntries : ℕ) {text : List UInt8} (h : ReturnsAtLineEnds text) :
    read maxEntries (read maxEntries text).text = read maxEntries text := by
  have hread := read_text (writable_read maxEntries h)
  have hmax : (read maxEntries text).maxEntries = maxEntries := by rw [read_eq]
  rwa [hmax] at hread

/-! ## The round trips of the programs -/

/-- The power stays on, and nothing fails but the renaming over an existing log. -/
def Works (env : FileEnv LogSite) : Prop := OnlyRefusals env ∧ env.cut = none

theorem Works.load {env : FileEnv LogSite} (h : Works env) (maxEntries : ℕ) (files : LogFiles) :
    (load maxEntries env files).1 = some (true, stored maxEntries files) ∧
      stored maxEntries (load maxEntries env files).2 = stored maxEntries files := by
  obtain ⟨result, hresult⟩ := Option.isSome_iff_exists.mp (returns_load maxEntries env files h.2)
  obtain ⟨rfl, hstored, -⟩ := LogBoots.load_returns h.1 (Prod.ext hresult rfl)
  exact ⟨hresult, hstored⟩

theorem Works.save {env : FileEnv LogSite} (h : Works env) (log : ResetLog) (files : LogFiles) :
    (save log env files).1 = some true ∧
      ∀ maxEntries, stored maxEntries (save log env files).2 = read maxEntries log.text := by
  obtain ⟨ok, hok⟩ := Option.isSome_iff_exists.mp (returns_save log env files h.2)
  have hsaved := fun maxEntries => LogBoots.save_returns maxEntries h.1 (Prod.ext hok rfl)
  rw [(hsaved 0).1] at hok
  exact ⟨hok, fun maxEntries => (hsaved maxEntries).2⟩

def saveLoad (maxEntries : ℕ) (log : ResetLog) : LogM (Bool × ResetLog) := do
  let _ ← save log
  load maxEntries

def loadSaveLoad (maxEntries : ℕ) : LogM (Bool × ResetLog) := do
  let (_, log) ← load maxEntries
  saveLoad maxEntries log

theorem Works.saveLoad {env : FileEnv LogSite} (h : Works env) (maxEntries : ℕ) (log : ResetLog)
    (files : LogFiles) :
    (saveLoad maxEntries log env files).1 = some (true, read maxEntries log.text) := by
  obtain ⟨hok, hsaved⟩ := h.save log files
  rw [ResetLog.saveLoad, bind_of_some (Prod.ext hok rfl), (h.load maxEntries _).1, hsaved]

/-- **The round trips of the reset log's text.** What is saved is loaded with the newest
entries in place; a file's lines are read apart from each other, and the well-formed
entry lines are those that give an entry, a legacy one with the label its name ends in;
and a file with carriage returns only at its line ends stays what it is. -/
theorem load_roundTrips (maxEntries : ℕ) {env : FileEnv LogSite} (henv : Works env)
    (files : LogFiles) :
    (∀ log : ResetLog, (∀ entry ∈ log.entries, entry.Writable) →
      (saveLoad maxEntries log env files).1 =
        some (true, ⟨maxEntries, log.bootCount, newest maxEntries log.entries⟩)) ∧
    (∀ text, files.durable .log = some text →
      (load maxEntries env files).1 =
        some (true, ⟨maxEntries, ((lines text).filterMap lineCount).getLastD 0,
          newest maxEntries ((lines text).filterMap lineEntry)⟩)) ∧
    (∀ line entry, lineEntry line = some entry ↔ EntryLine (stripReturn line) entry) ∧
    (∀ boot reason abnormal name label entry, IsFields boot reason abnormal entry →
      IsLabel label →
      lineEntry (ascii "entry=" ++ boot ++ [44] ++ reason ++ [44] ++ abnormal ++ [44] ++
          (name ++ ascii " (" ++ label ++ ascii ")")) =
        some { entry with name := name, slot := label }) ∧
    (∀ text, files.durable .log = some text → ReturnsAtLineEnds text →
      (loadSaveLoad maxEntries env files).1 = (load maxEntries env files).1) := by
  refine ⟨?_, ?_, fun line entry => lineEntry_iff, ?_, ?_⟩
  · intro log hwritable
    rw [henv.saveLoad, read_text_newest maxEntries hwritable]
  · intro text htext
    rw [(henv.load maxEntries files).1, stored_of_log htext, read_eq]
  · intro boot reason abnormal name label entry hfields hlabel
    have hlast : (ascii "entry=" ++ boot ++ [44] ++ reason ++ [44] ++ abnormal ++ [44] ++
        (name ++ ascii " (" ++ label ++ ascii ")")).getLast? ≠ some 13 := by
      have hclose : ascii ")" = [41] := by decide
      rw [hclose, ← List.append_assoc, List.getLast?_concat]
      decide
    rw [lineEntry_iff, stripReturn, if_neg hlast]
    exact .entry ⟨hfields.boot, hfields.reason, hfields.abnormal⟩ (.labelled hlabel)
  · intro text htext hreturns
    obtain ⟨hloaded, -⟩ := henv.load maxEntries files
    rw [loadSaveLoad, bind_of_some (Prod.ext hloaded rfl), hloaded, stored_of_log htext]
    dsimp only
    rw [henv.saveLoad, read_text_read maxEntries hreturns]

/-- A log with entries of both formats and a damaged line. -/
def mixedText : List UInt8 :=
  ascii "boot_count=3\nentry=1,1,0,power-on\nentry=2,4,1,panic (ota_0)\n" ++
    ascii "entry2=4,9\nentry2=3,9,1,ota_1,brownout (x y)\n"

def mixedFiles : LogFiles where
  durable := fun path => if path = .log then some mixedText else none
  stream := fun _ => none

def mixedEntries : List Entry :=
  [⟨2, 4, true, ascii "panic", ascii "ota_0"⟩, ⟨3, 9, true, ascii "brownout (x y)", ascii "ota_1"⟩]

theorem load_roundTrips_mixed :
    (load 2 LogBoots.quiet mixedFiles).1 = some (true, ⟨2, 3, mixedEntries⟩) ∧
      (loadSaveLoad 2 LogBoots.quiet mixedFiles).1 = some (true, ⟨2, 3, mixedEntries⟩) := by
  have hworks : Works LogBoots.quiet := ⟨fun _ _ => rfl, rfl⟩
  have hreturns : ReturnsAtLineEnds mixedText := fun before after heq =>
    absurd (heq ▸ List.mem_append_right before List.mem_cons_self : 13 ∈ mixedText)
      (by decide +kernel)
  obtain ⟨-, hload, -, -, hloop⟩ := load_roundTrips 2 hworks mixedFiles
  have hread : (⟨2, ((lines mixedText).filterMap lineCount).getLastD 0,
      newest 2 ((lines mixedText).filterMap lineEntry)⟩ : ResetLog) = ⟨2, 3, mixedEntries⟩ := by
    decide +kernel
  have hloaded := hload mixedText rfl
  rw [hread] at hloaded
  exact ⟨hloaded, (hloop mixedText rfl hreturns).trans hloaded⟩

end ResetLog

end OmegaStick
