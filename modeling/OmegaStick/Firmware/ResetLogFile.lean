import Mathlib.Data.FinEnum
import OmegaStick.Firmware.ResetLog
import OmegaStick.Library.FileProgram
import OmegaStick.Library.TextFields

/-!
# The reset log's file

The text `ResetLog::save` writes and `ResetLog::load` reads, and the two
functions as programs over the log and its temporary sibling.  `read_text` is
the round trip of the text: a log with `Writable` entries is read back as it
was written.
-/

namespace OmegaStick

open TextFields

namespace ResetLog

/-! ## Reading the text -/

def uint32Max : ℕ := 4294967295

def int32Max : ℕ := 2147483647

/-- `parse_u32` -/
def parseU32 (text : List UInt8) : Option ℕ := parseDecimal uint32Max text

/-- `parse_int` -/
def parseInt (text : List UInt8) : Option ℤ :=
  let negative := text.head? == some 45
  ((parseU32 (if negative then text.tail else text)).bind fun magnitude =>
    if int32Max < magnitude then none
    else some (if negative then -(magnitude : ℤ) else magnitude))

/-- `rfind(" (")`: what comes before and after the last one. -/
def lastOpen : List UInt8 → Option (List UInt8 × List UInt8)
  | [] => none
  | c :: rest =>
      match lastOpen rest with
      | some (before, after) => some (c :: before, after)
      | none => if c = 32 ∧ rest.head? = some 40 then some ([], rest.tail) else none

/-- The legacy `reason (slot)`: the reason and the label, which has no blank,
comma or parenthesis. -/
def splitLegacyName (name : List UInt8) : List UInt8 × List UInt8 :=
  if 3 < name.length ∧ name.getLast? = some 41 then
    match lastOpen name with
    | some (reason, rest) =>
        let label := rest.dropLast
        if label ≠ [] ∧ ∀ c ∈ label, c ∉ ascii " ,()" then (reason, label) else (name, [])
    | none => (name, [])
  else (name, [])

/-- `parse_entry` -/
def parseEntry (value : List UInt8) (hasSlot : Bool) : Option Entry := do
  let (boot, rest) ← cutAt 44 value
  let (reason, rest) ← cutAt 44 rest
  let (abnormal, rest) ← cutAt 44 rest
  let boot ← parseU32 boot
  let reason ← parseInt reason
  let abnormal ← parseU32 abnormal
  if hasSlot then
    let (slot, name) ← cutAt 44 rest
    pure ⟨UInt32.ofNat boot, reason, abnormal != 0, name, slot⟩
  else
    let (name, slot) := splitLegacyName rest
    pure ⟨UInt32.ofNat boot, reason, abnormal != 0, name, slot⟩

/-- One line of the file; a damaged or unknown one is skipped. -/
def readLine (log : ResetLog) (line : List UInt8) : ResetLog :=
  let line := if line.getLast? = some 13 then line.dropLast else line
  match cutAt 61 line with
  | none => log
  | some (key, value) =>
      if key = ascii "boot_count" then
        match parseU32 value with
        | some parsed => { log with bootCount := UInt32.ofNat parsed }
        | none => log
      else if key = ascii "entry" then
        match parseEntry value false with
        | some entry => { log with entries := log.entries ++ [entry] }
        | none => log
      else if key = ascii "entry2" then
        match parseEntry value true with
        | some entry => { log with entries := log.entries ++ [entry] }
        | none => log
      else log

/-- The log a file's text stands for. -/
def read (maxEntries : ℕ) (text : List UInt8) : ResetLog :=
  ((lines text).foldl readLine (new maxEntries)).trim

/-! ## Writing it -/

def printInt (n : ℤ) : List UInt8 :=
  if n < 0 then 45 :: decimal n.natAbs else decimal n.natAbs

def Entry.line (entry : Entry) : List UInt8 :=
  let slot := entry.slot.filter fun c => !(c == 44 || c == 10 || c == 13)
  ascii "entry2=" ++ decimal entry.boot.toNat ++ [44] ++ printInt entry.reason ++ [44] ++
    decimal (if entry.abnormal then 1 else 0) ++ [44] ++ slot ++ [44] ++ entry.name

/-- The lines of the file. -/
def textLines (log : ResetLog) : List (List UInt8) :=
  (ascii "boot_count=" ++ decimal log.bootCount.toNat) :: log.entries.map Entry.line

def text (log : ResetLog) : List UInt8 := log.textLines.flatMap (· ++ [10])

/-! ## The round trip -/

/-- What the line format can hold of an entry: a reason that is the negative of
no larger one, a name on one line, and a slot label as they are. -/
structure Entry.Writable (entry : Entry) : Prop where
  reason : entry.reason.natAbs ≤ int32Max
  name : 10 ∉ entry.name ∧ entry.name.getLast? ≠ some 13
  slot : ∀ c ∈ entry.slot, c ≠ 44 ∧ c ≠ 10 ∧ c ≠ 13

theorem parseU32_decimal {n : ℕ} (h : n ≤ uint32Max) : parseU32 (decimal n) = some n :=
  parseDecimal_decimal h

theorem head?_decimal (n : ℕ) : (decimal n).head? ≠ some 45 := by
  intro h
  exact notMem_decimal (by rfl) (List.mem_of_mem_head? h)

theorem parseInt_printInt {n : ℤ} (h : n.natAbs ≤ int32Max) : parseInt (printInt n) = some n := by
  have hmagnitude : parseU32 (decimal n.natAbs) = some n.natAbs :=
    parseU32_decimal (h.trans (by decide))
  rw [parseInt, printInt]
  by_cases hn : n < 0
  · simp only [if_pos hn, List.head?_cons, beq_self_eq_true, if_true, List.tail_cons, hmagnitude,
      Option.bind_some, if_neg (Nat.not_lt.mpr h)]
    rw [Int.ofNat_natAbs_of_nonpos hn.le, neg_neg]
  · have hhead : ((decimal n.natAbs).head? == some 45) = false := by
      simpa using head?_decimal n.natAbs
    simp only [if_neg hn, hhead, Bool.false_eq_true, if_false, hmagnitude, Option.bind_some,
      if_neg (Nat.not_lt.mpr h)]
    rw [Int.natAbs_of_nonneg (not_lt.mp hn)]

theorem notMem_printInt {n : ℤ} {c : UInt8} (h : DecimalText.isDigit c = false) (hminus : c ≠ 45) :
    c ∉ printInt n := by
  rw [printInt]
  split_ifs
  · rw [List.mem_cons, not_or]
    exact ⟨hminus, notMem_decimal h⟩
  · exact notMem_decimal h

/-- The slot label is written as it is. -/
theorem Entry.Writable.line_eq {entry : Entry} (h : entry.Writable) :
    entry.line = ascii "entry2" ++ 61 :: (decimal entry.boot.toNat ++ 44 ::
      (printInt entry.reason ++ 44 :: (decimal (if entry.abnormal then 1 else 0) ++ 44 ::
        (entry.slot ++ 44 :: entry.name)))) := by
  have hslot : (entry.slot.filter fun c => !(c == 44 || c == 10 || c == 13)) = entry.slot := by
    refine List.filter_eq_self.mpr fun c hc => ?_
    obtain ⟨hcomma, hnewline, hreturn⟩ := h.slot c hc
    simp [hcomma, hnewline, hreturn]
  have hkey : ascii "entry2=" = ascii "entry2" ++ [61] := by decide
  simp only [Entry.line, hslot, hkey, List.append_assoc, List.cons_append, List.nil_append]

theorem parseEntry_line {entry : Entry} (h : entry.Writable) :
    parseEntry (decimal entry.boot.toNat ++ 44 :: (printInt entry.reason ++ 44 ::
      (decimal (if entry.abnormal then 1 else 0) ++ 44 :: (entry.slot ++ 44 :: entry.name)))) true =
        some entry := by
  have hcomma : ∀ n, 44 ∉ decimal n := fun n => notMem_decimal (by decide)
  have hcommaInt : ∀ n, 44 ∉ printInt n := fun n => notMem_printInt (by decide) (by decide)
  have hcommaSlot : 44 ∉ entry.slot := fun hmem => (h.slot 44 hmem).1 rfl
  have hboot : entry.boot.toNat ≤ uint32Max := Nat.le_of_lt_succ entry.boot.toNat_lt
  have habnormal : (if entry.abnormal then 1 else 0 : ℕ) ≤ uint32Max := by
    cases entry.abnormal <;> decide
  have hflag : ((if entry.abnormal then 1 else 0 : ℕ) != 0) = entry.abnormal := by
    cases entry.abnormal <;> rfl
  simp only [parseEntry, cutAt_append (hcomma _), cutAt_append (hcommaInt _),
    cutAt_append hcommaSlot, bind, Option.bind_some, parseU32_decimal hboot,
    parseInt_printInt h.reason, parseU32_decimal habnormal, if_true, pure, hflag,
    UInt32.ofNat_toNat]

theorem Entry.Writable.getLast?_line {entry : Entry} (h : entry.Writable) :
    entry.line.getLast? ≠ some 13 := by
  have hname : (44 :: entry.name).getLast? ≠ some 13 := by
    rw [List.getLast?_cons]
    cases hlast : entry.name.getLast? with
    | none => decide
    | some c => simpa [hlast] using h.name.2
  have hcut : ∀ front, entry.line = front ++ 44 :: entry.name → entry.line.getLast? ≠ some 13 := by
    intro front heq
    rw [heq, List.getLast?_append_of_ne_nil _ (List.cons_ne_nil _ _)]
    exact hname
  exact hcut _ (by rw [Entry.line, List.append_assoc]; rfl)

theorem readLine_line (log : ResetLog) {entry : Entry} (h : entry.Writable) :
    log.readLine entry.line = { log with entries := log.entries ++ [entry] } := by
  rw [readLine, if_neg h.getLast?_line, h.line_eq]
  rw [cutAt_append (by decide)]
  dsimp only
  rw [if_neg (by decide), if_neg (by decide), if_pos rfl, parseEntry_line h]

theorem readLine_bootCount (log : ResetLog) (n : UInt32) :
    log.readLine (ascii "boot_count=" ++ decimal n.toNat) = { log with bootCount := n } := by
  have hkey : ascii "boot_count=" = ascii "boot_count" ++ [61] := by decide
  have hlast : (ascii "boot_count=" ++ decimal n.toNat).getLast? ≠ some 13 := by
    intro h
    rcases List.mem_append.mp (List.mem_of_getLast? h) with h | h
    · revert h
      decide
    · exact notMem_decimal (by decide) h
  rw [readLine, if_neg hlast, hkey, List.append_assoc, List.singleton_append]
  rw [cutAt_append (by decide)]
  dsimp only
  rw [if_pos rfl, parseU32_decimal (Nat.le_of_lt_succ n.toNat_lt)]
  simp

/-- Every entry can be written, and there are no more than the ring keeps. -/
structure Writable (log : ResetLog) : Prop where
  entries : ∀ entry ∈ log.entries, entry.Writable
  length : log.entries.length ≤ log.maxEntries

theorem foldl_readLine {entries : List Entry} (h : ∀ entry ∈ entries, entry.Writable) :
    ∀ log : ResetLog, (entries.map Entry.line).foldl readLine log =
      { log with entries := log.entries ++ entries } := by
  induction entries with
  | nil => intro log; simp
  | cons entry entries ih =>
      intro log
      rw [List.forall_mem_cons] at h
      rw [List.map_cons, List.foldl_cons, readLine_line log h.1, ih h.2]
      simp

theorem trim_of_length_le {log : ResetLog} (h : log.entries.length ≤ log.maxEntries) :
    log.trim = log := by
  rw [trim, Nat.sub_eq_zero_of_le h]
  rfl

theorem newline_notMem_textLines {log : ResetLog} (h : ∀ entry ∈ log.entries, entry.Writable) :
    ∀ line ∈ log.textLines, 10 ∉ line := by
  intro line hline
  rcases List.mem_cons.mp hline with rfl | hline
  · rw [List.mem_append, not_or]
    exact ⟨by decide, notMem_decimal (by decide)⟩
  · obtain ⟨entry, hentry, rfl⟩ := List.mem_map.mp hline
    have hwritable := h entry hentry
    have hslot : 10 ∉ entry.slot := fun hmem => (hwritable.slot 10 hmem).2.1 rfl
    rw [hwritable.line_eq]
    simp only [List.mem_append, List.mem_cons, not_or]
    exact ⟨by decide, by decide, notMem_decimal (by decide), by decide,
      notMem_printInt (by decide) (by decide), by decide, notMem_decimal (by decide), by decide,
      hslot, by decide, hwritable.name.1⟩

/-- The newest entries, as many as a log keeps. -/
def newest (maxEntries : ℕ) (entries : List Entry) : List Entry :=
  entries.drop (entries.length - maxEntries)

/-- However many entries are written, the newest of them are read back. -/
theorem read_text_newest (maxEntries : ℕ) {log : ResetLog}
    (h : ∀ entry ∈ log.entries, entry.Writable) :
    read maxEntries log.text = ⟨maxEntries, log.bootCount, newest maxEntries log.entries⟩ := by
  rw [read, text, lines_flatMap (newline_notMem_textLines h), textLines, List.foldl_cons,
    readLine_bootCount, foldl_readLine h]
  rfl

/-- **A log that is written is read back as it was.** -/
theorem read_text {log : ResetLog} (h : log.Writable) : read log.maxEntries log.text = log := by
  rw [read_text_newest log.maxEntries h.entries, newest, Nat.sub_eq_zero_of_le h.length]
  rfl

/-- A file without a line is an empty log. -/
@[simp] theorem read_nil (maxEntries : ℕ) : read maxEntries [] = new maxEntries := by
  rw [read, lines, List.foldl_nil]
  exact trim_of_length_le (Nat.zero_le _)

end ResetLog

end OmegaStick
