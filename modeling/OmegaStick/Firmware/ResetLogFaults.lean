import OmegaStick.Firmware.ResetLogLines

/-!
# The reset log when its files fail

One boot from any two files, with any of its filesystem operations failing.
`HistoryKept` is the promise that the stored history is as before or has this
boot's entry added, and that no log that starts again at boot 1 takes its place.
An equal log does not show that it took another one's place, so the second half
is about what the boot would have left of any earlier log (`StartsAgain`).  A
load that fails leaves an empty log in memory, which the boot goes on with, so
the promise depends on how far the save then gets: `historyKept_iff` says
exactly when it holds.

What a write that failed leaves is a part of the text of a first boot's log.  Up
to the count's digit it says nothing (`read_take_of_lt`), from there on it starts
at boot 1, and it is the whole log when at most the last newline is missing
(`read_take_of_le`).
-/

namespace OmegaStick

open FileM TextFields

namespace ResetLog

/-! ## The boot -/

/-- The log in memory after the load. -/
def loadedLog (maxEntries : ℕ) (env : FileEnv LogSite) (files : LogFiles) : ResetLog :=
  if loadOk env files then stored maxEntries files else new maxEntries

/-- The text the boot then saves. -/
def savedText (maxEntries : ℕ) (reset : Reset) (env : FileEnv LogSite) (files : LogFiles) :
    List UInt8 :=
  ((loadedLog maxEntries env files).recordReset reset).text

theorem wp_boot (maxEntries : ℕ) (reset : Reset) (env : FileEnv LogSite) (files : LogFiles) :
    wp env (boot maxEntries reset)
      (fun _ after => stored maxEntries after =
        afterSave maxEntries env (stored maxEntries files) (logThere env files)
          (savedText maxEntries reset env files))
      (fun _ => True) files := by
  rw [boot, wp_bind]
  refine wp_mono (wp_load maxEntries env files) ?_ fun _ _ => trivial
  rintro result loaded h
  refine wp_mono (wp_save maxEntries env loaded _) ?_ fun _ _ => trivial
  rintro ok after ⟨-, hafter⟩
  rw [hafter, h.stored, h.log, h.result]
  rfl

/-- What one boot leaves stored, when the power stays on. -/
theorem stored_boot (maxEntries : ℕ) (reset : Reset) (outcome : LogSite → FileOutcome)
    (files : LogFiles) :
    stored maxEntries (boot maxEntries reset ⟨outcome, none⟩ files).2 =
      afterSave maxEntries ⟨outcome, none⟩ (stored maxEntries files)
        (logThere ⟨outcome, none⟩ files) (savedText maxEntries reset ⟨outcome, none⟩ files) := by
  obtain ⟨ok, hok⟩ := Option.isSome_iff_exists.mp
    (returns_boot maxEntries reset ⟨outcome, none⟩ files rfl)
  exact wp_returns (wp_boot maxEntries reset ⟨outcome, none⟩ files) (Prod.ext hok rfl)

/-! ## The history -/

/-- The stored history with this boot's entry, as a file keeps it. -/
def extended (maxEntries : ℕ) (reset : Reset) (files : LogFiles) : ResetLog :=
  read maxEntries ((stored maxEntries files).recordReset reset).text

/-- A log is the stored history, or has this boot's entry added. -/
def IsHistory (maxEntries : ℕ) (reset : Reset) (files : LogFiles) (log : ResetLog) : Prop :=
  log = stored maxEntries files ∨ log = extended maxEntries reset files

/-- The files with another text as the earlier log: the log file's, or without one the
temporary file's. -/
def withEarlier (files : LogFiles) (text : List UInt8) : LogFiles :=
  { files with
    durable := Function.update files.durable
      (if (files.durable .log).isSome then .log else .temp) (some text) }

/-- Whatever the earlier log held, the boot leaves one that starts again at boot 1. -/
def StartsAgain (maxEntries : ℕ) (reset : Reset) (outcome : LogSite → FileOutcome)
    (files : LogFiles) : Prop :=
  ∀ text, (stored maxEntries
    (boot maxEntries reset ⟨outcome, none⟩ (withEarlier files text)).2).bootCount = 1

/-- **A boot keeps the stored history**, whichever operations fail. -/
structure HistoryKept (maxEntries : ℕ) (reset : Reset) (outcome : LogSite → FileOutcome)
    (files : LogFiles) : Prop where
  /-- The history is as before, or has this boot's entry added. -/
  history : IsHistory maxEntries reset files
    (stored maxEntries (boot maxEntries reset ⟨outcome, none⟩ files).2)
  /-- Where there was one, none that starts again at boot 1 takes its place. -/
  notReplaced : stored maxEntries files ≠ new maxEntries →
    ¬ StartsAgain maxEntries reset outcome files

/-! ## Part of a first boot's log -/

/-- The log of a boot that found none. -/
def firstLog (maxEntries : ℕ) (reset : Reset) : ResetLog := (new maxEntries).recordReset reset

/-- The entry of a first boot. -/
def firstEntry (reset : Reset) : Entry :=
  ⟨1, reset.reason, reset.abnormal, reset.name, reset.slot⟩

/-- The count's line of a first boot's log. -/
def firstCount : List UInt8 := ascii "boot_count=1"

theorem writable_firstEntry (reset : Reset) : (firstEntry reset).Writable :=
  ⟨reset.reason_le, reset.name_line, reset.slot_label⟩

theorem writable_firstLog (maxEntries : ℕ) (reset : Reset) :
    (firstLog maxEntries reset).Writable :=
  (writable_new maxEntries).recordReset reset

theorem read_text_firstLog (maxEntries : ℕ) (reset : Reset) :
    read maxEntries (firstLog maxEntries reset).text = firstLog maxEntries reset := by
  have hread := read_text (writable_firstLog maxEntries reset)
  have hmax : (firstLog maxEntries reset).maxEntries = maxEntries := rfl
  rwa [hmax] at hread

theorem firstLog_eq {maxEntries : ℕ} (hpos : 0 < maxEntries) (reset : Reset) :
    firstLog maxEntries reset = ⟨maxEntries, 1, [firstEntry reset]⟩ := by
  have htrim : trim ⟨maxEntries, 1, [firstEntry reset]⟩ =
      ⟨maxEntries, 1, [firstEntry reset]⟩ := trim_of_length_le hpos
  exact htrim

theorem text_firstLog {maxEntries : ℕ} (hpos : 0 < maxEntries) (reset : Reset) :
    (firstLog maxEntries reset).text =
      firstCount ++ 10 :: ((firstEntry reset).line ++ [10]) := by
  have hcount : ascii "boot_count=" ++ decimal (1 : UInt32).toNat = firstCount := by
    decide +kernel
  simp only [firstLog_eq hpos, text, textLines, List.map_cons, List.map_nil, List.flatMap_cons,
    List.flatMap_nil, hcount]
  simp

theorem Entry.Writable.newline_notMem_line {entry : Entry} (h : entry.Writable) :
    10 ∉ entry.line := by
  have hmem := @newline_notMem_textLines ⟨1, 0, [entry]⟩ (by simpa using h)
  exact hmem _ (by simp [textLines])

theorem newline_notMem_firstEntry (reset : Reset) : 10 ∉ (firstEntry reset).line :=
  (writable_firstEntry reset).newline_notMem_line

theorem line_ne_nil (entry : Entry) : entry.line ≠ [] := by
  simp [Entry.line]

theorem length_text_firstLog {maxEntries : ℕ} (hpos : 0 < maxEntries) (reset : Reset) :
    (firstLog maxEntries reset).text.length =
      firstCount.length + 2 + (firstEntry reset).line.length := by
  rw [text_firstLog hpos]
  simp only [List.length_append, List.length_cons, List.length_nil]
  omega

theorem newest_singleton {maxEntries : ℕ} (hpos : 0 < maxEntries) (entry : Entry) :
    newest maxEntries [entry] = [entry] := by
  have hlength : [entry].length ≤ maxEntries := hpos
  rw [newest, Nat.sub_eq_zero_of_le hlength]
  rfl

theorem lineEntry_line {entry : Entry} (h : entry.Writable) :
    lineEntry entry.line = some entry := by
  have hread := congrArg entries (readLine_line (new 0) h)
  rw [readLine_eq] at hread
  cases hentry : lineEntry entry.line with
  | none => simp [hentry] at hread
  | some other => simpa [hentry] using hread

/-- A line that begins an entry's gives no count. -/
theorem lineCount_of_begins {entry : Entry} (h : entry.Writable) {line : List UInt8}
    (hbegins : line <+: entry.line) : lineCount line = none := by
  have hstrip : stripReturn line <+: entry.line := by
    rw [stripReturn]
    split_ifs
    · exact (List.dropLast_prefix line).trans hbegins
    · exact hbegins
  rw [lineCount]
  cases hcut : cutAt 61 (stripReturn line) with
  | none => rfl
  | some fields =>
      obtain ⟨key, value⟩ := fields
      obtain ⟨hline, hkey⟩ := cutAt_eq_some hcut
      rw [hline, h.line_eq] at hstrip
      obtain ⟨rfl, -⟩ := field_of_begins hkey (by decide) hstrip
      have hkey : ascii "entry2" ≠ ascii "boot_count" := by decide
      simp [hkey]

/-- A line that gives an entry and begins the line of that entry is all of it. -/
theorem length_le_of_begins {entry : Entry} (h : entry.Writable) {line : List UInt8}
    (hbegins : line <+: entry.line) (hentry : lineEntry line = some entry) :
    entry.line.length ≤ line.length := by
  have hstripped : stripReturn line <+: line := by
    rw [stripReturn]
    split_ifs
    · exact List.dropLast_prefix line
    · exact List.prefix_refl line
  have hstrip := hstripped.trans hbegins
  refine le_trans ?_ hstripped.length_le
  have hcomma : ∀ n, 44 ∉ decimal n := fun n => notMem_decimal (by decide)
  have hcommaInt : ∀ n, 44 ∉ printInt n := fun n => notMem_printInt (by decide) (by decide)
  have hdigit : DecimalText.isDigit 44 = false := by decide
  have hline := lineEntry_iff.mp hentry
  generalize stripReturn line = body at hline hstrip
  rw [h.line_eq] at hstrip
  cases hline with
  | @entry boot reason abnormal name _ hfields hname =>
      have hbody : ascii "entry=" ++ boot ++ [44] ++ reason ++ [44] ++ abnormal ++ [44] ++ name =
          ascii "entry" ++ 61 :: (boot ++ 44 :: (reason ++ 44 :: (abnormal ++ 44 :: name))) := by
        have hkey : ascii "entry=" = ascii "entry" ++ [61] := by decide
        simp [hkey]
      rw [hbody] at hstrip
      obtain ⟨hkey, -⟩ := field_of_begins (by decide) (by decide) hstrip
      exact absurd hkey (by decide)
  | @entry2 boot reason abnormal _ hfields hslot =>
      have hbody : ascii "entry2=" ++ boot ++ [44] ++ reason ++ [44] ++ abnormal ++ [44] ++
          entry.slot ++ [44] ++ entry.name = ascii "entry2" ++ 61 :: (boot ++ 44 :: (reason ++
            44 :: (abnormal ++ 44 :: (entry.slot ++ 44 :: entry.name)))) := by
        have hkey : ascii "entry2=" = ascii "entry2" ++ [61] := by decide
        simp [hkey]
      obtain ⟨a, habnormal, -⟩ := hfields.abnormal
      rw [hbody] at hstrip ⊢
      -- field by field, what was read is what was written
      obtain ⟨-, hboot⟩ := field_of_begins (by decide) (by decide) hstrip
      obtain ⟨rfl, hreason⟩ := field_of_begins (hfields.boot.notMem hdigit) (hcomma _) hboot
      obtain ⟨rfl, hflag⟩ :=
        field_of_begins (hfields.reason.1.notMem hdigit (by decide)) (hcommaInt _) hreason
      obtain ⟨rfl, -⟩ := field_of_begins (habnormal.1.notMem hdigit) (hcomma _) hflag
      rw [h.line_eq]

section Part

variable {maxEntries : ℕ} (reset : Reset) {k : ℕ}

/-- Up to the digit of the count nothing is said. -/
theorem read_take_of_lt (hpos : 0 < maxEntries) (hk : k < firstCount.length) :
    read maxEntries ((firstLog maxEntries reset).text.take k) = new maxEntries := by
  have hsilent : ∀ k < firstCount.length, (lines (firstCount.take k)).filterMap lineCount = [] ∧
      (lines (firstCount.take k)).filterMap lineEntry = [] := by decide +kernel
  rw [text_firstLog hpos, List.take_append_of_le_length hk.le, read_eq, (hsilent k hk).1,
    (hsilent k hk).2]
  simp [new, newest]

/-- From the digit on, the count and what is there of the entry's line. -/
theorem lines_take (hpos : 0 < maxEntries) (hk : firstCount.length ≤ k) :
    lines ((firstLog maxEntries reset).text.take k) =
      firstCount :: lines ((firstEntry reset).line.take (k - (firstCount.length + 1))) := by
  have hline := newline_notMem_firstEntry reset
  have hcount : 10 ∉ firstCount ∧ firstCount ≠ [] := by decide
  rw [text_firstLog hpos, List.take_append, List.take_of_length_le hk]
  generalize firstCount = count at hk hcount
  rcases Nat.eq_or_lt_of_le hk with rfl | hmore
  · rw [Nat.sub_self, Nat.sub_eq_zero_of_le (Nat.le_succ _), List.take_zero, List.take_zero,
      List.append_nil, lines_of_notMem hcount.1, if_neg hcount.2]
    rfl
  · obtain ⟨j, rfl⟩ : ∃ j, k = count.length + 1 + j := ⟨k - (count.length + 1), by omega⟩
    have hrest : count.length + 1 + j - count.length = j + 1 := by omega
    rw [hrest, List.take_succ_cons, lines_append_newline hcount.1, Nat.add_sub_cancel_left]
    refine congrArg (count :: ·) ?_
    -- the newline at the end makes no further line
    rcases Nat.lt_or_ge (firstEntry reset).line.length j with hall | hpart
    · have hended : ((firstEntry reset).line ++ [10]).length ≤ j := by simpa using hall
      rw [List.take_of_length_le hended, List.take_of_length_le hall.le,
        lines_append_newline hline, lines_of_notMem hline, if_neg (line_ne_nil _)]
      rfl
    · rw [List.take_append_of_le_length hpart]

/-- A part with the digit is a log that starts at boot 1, and has the entry only if at most
the last newline is missing. -/
theorem read_take_of_le (hpos : 0 < maxEntries) (hk : firstCount.length ≤ k) :
    (read maxEntries ((firstLog maxEntries reset).text.take k)).bootCount = 1 ∧
      (read maxEntries ((firstLog maxEntries reset).text.take k) = firstLog maxEntries reset ↔
        (firstLog maxEntries reset).text.length ≤ k + 1) := by
  have hentry := writable_firstEntry reset
  have hcount : lineCount firstCount = some 1 ∧ lineEntry firstCount = none := by decide +kernel
  have hbegins := List.take_prefix (k - (firstCount.length + 1)) (firstEntry reset).line
  have hlines := lines_take reset hpos hk
  have hlength : ((firstEntry reset).line.take (k - (firstCount.length + 1))).length =
      min (k - (firstCount.length + 1)) (firstEntry reset).line.length := List.length_take
  generalize (firstEntry reset).line.take (k - (firstCount.length + 1)) = part at *
  have hpart : lines part = if part = [] then [] else [part] :=
    lines_of_notMem fun h => newline_notMem_firstEntry reset (hbegins.subset h)
  have hnone : (lines part).filterMap lineCount = [] := by
    rw [hpart]
    split_ifs
    · rfl
    · exact List.filterMap_cons_none (lineCount_of_begins hentry hbegins)
  have hread : read maxEntries ((firstLog maxEntries reset).text.take k) =
      ⟨maxEntries, 1, newest maxEntries ((lines part).filterMap lineEntry)⟩ := by
    rw [read_eq, hlines, List.filterMap_cons_some hcount.1, List.filterMap_cons_none hcount.2,
      hnone]
    rfl
  rw [hread, length_text_firstLog hpos, firstLog_eq hpos]
  refine ⟨rfl, ?_⟩
  have hpositive := List.length_pos_iff.mpr (line_ne_nil (firstEntry reset))
  simp only [ResetLog.mk.injEq, true_and, hpart]
  constructor
  · intro hnewest
    split_ifs at hnewest with hnil
    · simp [newest] at hnewest
    cases hlast : lineEntry part with
    | none =>
        simp [newest, hlast] at hnewest
    | some entry =>
        rw [List.filterMap_cons_some hlast, List.filterMap_nil, newest_singleton hpos] at hnewest
        obtain rfl := (List.cons.inj hnewest).1
        have hall := length_le_of_begins hentry hbegins hlast
        omega
  · intro hall
    obtain rfl := hbegins.eq_of_length (by omega)
    rw [if_neg (line_ne_nil _), List.filterMap_cons_some (lineEntry_line hentry),
      List.filterMap_nil, newest_singleton hpos]

end Part

/-! ## When the history is kept -/

/-- The bytes of the text that a write that failed left. -/
def writtenBytes (env : FileEnv LogSite) : ℕ :=
  (if env.ok .flush then env.outcome .close else env.outcome .flush).visible

/-- The history is safe: nothing can be written; or the text is written, and the load had
read the log, or the log can be neither replaced nor removed, or there was no history; or
writing it fails, with a log in place, or with no history and nothing of the text left, no
digit of it, or all but the last newline. -/
def Safe (maxEntries : ℕ) (reset : Reset) (env : FileEnv LogSite) (files : LogFiles) : Prop :=
  if env.ok .create = false then True
  else if (env.ok .flush && env.ok .close) = true then
    loadOk env files = true ∨ logStays env (logThere env files) = true ∨
      stored maxEntries files = new maxEntries
  else
    logThere env files = true ∨ stored maxEntries files = new maxEntries ∧
      (env.ok .discard = true ∨ writtenBytes env < firstCount.length ∨
        (firstLog maxEntries reset).text.length ≤ writtenBytes env + 1)

section Kept

variable {maxEntries : ℕ} {reset : Reset} {outcome : LogSite → FileOutcome} {files : LogFiles}

theorem exists_earlier (h : stored maxEntries files ≠ new maxEntries) :
    (files.durable .log).isSome ∨ (files.durable .temp).isSome := by
  by_contra hnone
  simp only [not_or, Bool.not_eq_true, Option.isSome_eq_false_iff, Option.isNone_iff_eq_none]
    at hnone
  exact h (stored_of_none hnone.1 hnone.2)

/-- The load goes as it does from `files`. -/
structure LoadsAs (env : FileEnv LogSite) (files files' : LogFiles) : Prop where
  loadOk : loadOk env files' = loadOk env files
  logThere : logThere env files' = logThere env files

/-- Another text in the earlier log's place is loaded the same way, and is what is stored. -/
structure WithEarlier (maxEntries : ℕ) (env : FileEnv LogSite) (files : LogFiles)
    (text : List UInt8) : Prop extends LoadsAs env files (withEarlier files text) where
  stored : stored maxEntries (withEarlier files text) = read maxEntries text

theorem withEarlier_spec (maxEntries : ℕ) (env : FileEnv LogSite) (text : List UInt8)
    (h : (files.durable .log).isSome ∨ (files.durable .temp).isSome) :
    WithEarlier maxEntries env files text := by
  cases hlog : files.durable .log with
  | some old =>
      have hnew : (withEarlier files text).durable .log = some text := by
        simp [withEarlier, hlog]
      exact ⟨⟨by simp [loadOk, hnew, hlog], by simp [logThere, hnew, hlog]⟩, stored_of_log hnew⟩
  | none =>
      rw [hlog] at h
      obtain ⟨old, htemp⟩ := Option.isSome_iff_exists.mp (h.resolve_left (by simp))
      have hnone : (withEarlier files text).durable .log = none := by simp [withEarlier, hlog]
      have hnew : (withEarlier files text).durable .temp = some text := by
        simp [withEarlier, hlog]
      exact ⟨⟨by simp [loadOk, hnone, hnew, hlog, htemp],
        by simp [logThere, hnone, hnew, hlog, htemp]⟩, stored_of_temp hnone hnew⟩

/-- What is saved when the load has found a history, or not. -/
theorem savedText_of_not_loadOk {env : FileEnv LogSite} (h : loadOk env files = false) :
    savedText maxEntries reset env files = (firstLog maxEntries reset).text := by
  simp [savedText, loadedLog, h, firstLog]

theorem savedText_of_new {env : FileEnv LogSite} (h : stored maxEntries files = new maxEntries) :
    savedText maxEntries reset env files = (firstLog maxEntries reset).text := by
  simp [savedText, loadedLog, h, firstLog]

/-- Without a log in place the load of a history has failed. -/
theorem loadOk_of_not_logThere {env : FileEnv LogSite} (h : logThere env files = false)
    (hearlier : (files.durable .log).isSome ∨ (files.durable .temp).isSome) :
    loadOk env files = false := by
  simp only [logThere, Bool.or_eq_false_iff, Bool.and_eq_false_iff] at h
  obtain ⟨hlog, hmoved⟩ := h
  have htemp := hearlier.resolve_left (by simp [hlog])
  obtain ⟨old, htemp⟩ := Option.isSome_iff_exists.mp htemp
  rw [Option.isSome_eq_false_iff, Option.isNone_iff_eq_none] at hlog
  simp [loadOk, hlog, htemp, hmoved.resolve_left (by simp [htemp])]

theorem stored_maxEntries : (stored maxEntries files).maxEntries = maxEntries := by
  unfold stored
  split
  · rw [read_eq]
  · rfl

/-- The log of a boot ends in that boot's line. -/
theorem exists_text_recordReset (reset : Reset) {log : ResetLog} (hpos : 0 < log.maxEntries) :
    ∃ before entry, Entry.Writable entry ∧
      (log.recordReset reset).text = before ++ 10 :: (entry.line ++ [10]) := by
  let entry : Entry :=
    ⟨log.bootCount + 1, reset.reason, reset.abnormal, reset.name, reset.slot⟩
  have hentries : (log.recordReset reset).entries =
      log.entries.drop (log.entries.length + 1 - log.maxEntries) ++ [entry] := by
    have hdrop : (log.recordReset reset).entries =
        (log.entries ++ [entry]).drop ((log.entries ++ [entry]).length - log.maxEntries) := rfl
    rw [hdrop, List.length_append, List.length_singleton,
      List.drop_append_of_le_length (by omega)]
  have hended : ∀ (first : List UInt8) (more : List (List UInt8)),
      ∃ before, (first :: more).flatMap (· ++ [10]) = before ++ [10] := by
    intro first more
    rcases List.eq_nil_or_concat more with rfl | ⟨init, last, rfl⟩
    · exact ⟨first, by simp⟩
    · exact ⟨(first :: init).flatMap (· ++ [10]) ++ last, by simp⟩
  obtain ⟨before, hbefore⟩ := hended
    (ascii "boot_count=" ++ decimal (log.recordReset reset).bootCount.toNat)
    ((log.entries.drop (log.entries.length + 1 - log.maxEntries)).map Entry.line)
  refine ⟨before, entry, ⟨reset.reason_le, reset.name_line, reset.slot_label⟩, ?_⟩
  rw [text, textLines, hentries, List.map_append, ← List.cons_append, List.flatMap_append, hbefore]
  simp

/-- An extended history has this boot's entry. -/
theorem extended_ne_new (hpos : 0 < maxEntries) :
    extended maxEntries reset files ≠ new maxEntries := by
  have hmax : 0 < (stored maxEntries files).maxEntries := by rwa [stored_maxEntries]
  obtain ⟨before, entry, hentry, htext⟩ := exists_text_recordReset reset hmax
  have hlast : (lines (entry.line ++ [10])).filterMap lineEntry = [entry] := by
    rw [lines_append_newline hentry.newline_notMem_line]
    exact List.filterMap_cons_some (lineEntry_line hentry)
  intro hnew
  have hnewest : newest maxEntries
      ((lines (before ++ [10])).filterMap lineEntry ++ [entry]) = [] := by
    rw [← hlast, ← List.filterMap_append, ← lines_append, ← htext]
    exact congrArg ResetLog.entries ((read_eq maxEntries _).symm.trans hnew)
  have hlength := congrArg List.length hnewest
  simp only [newest, List.length_drop, List.length_append, List.length_singleton,
    List.length_nil] at hlength
  omega

/-- Where there is no history, a boot that goes through leaves a first boot's log. -/
theorem extended_of_new (h : stored maxEntries files = new maxEntries) :
    extended maxEntries reset files = firstLog maxEntries reset := by
  rw [extended, h]
  exact read_text_firstLog maxEntries reset

/-- A boot that leaves the log as it is keeps the history. -/
theorem kept_of_unchanged
    (h : ∀ files', LoadsAs ⟨outcome, none⟩ files files' →
      stored maxEntries (boot maxEntries reset ⟨outcome, none⟩ files').2 =
        stored maxEntries files') :
    HistoryKept maxEntries reset outcome files where
  history := .inl (h files ⟨rfl, rfl⟩)
  notReplaced := by
    intro hearlier hagain
    have hspec := withEarlier_spec maxEntries ⟨outcome, none⟩ [] (exists_earlier hearlier)
    have hcount := hagain []
    rw [h _ hspec.toLoadsAs, hspec.stored, read_nil] at hcount
    exact absurd hcount (by simp [new])

/-- So does one that adds its entry to whatever log there is. -/
theorem kept_of_extended
    (h : ∀ files', LoadsAs ⟨outcome, none⟩ files files' →
      stored maxEntries (boot maxEntries reset ⟨outcome, none⟩ files').2 =
        extended maxEntries reset files') :
    HistoryKept maxEntries reset outcome files where
  history := .inr (h files ⟨rfl, rfl⟩)
  notReplaced := by
    intro hearlier hagain
    have hspec := withEarlier_spec maxEntries ⟨outcome, none⟩
      (firstLog maxEntries reset).text (exists_earlier hearlier)
    have hcount := hagain (firstLog maxEntries reset).text
    -- added to a first boot's log it is the second boot's
    have hread := read_text ((writable_firstLog maxEntries reset).recordReset reset)
    have hmax : ((firstLog maxEntries reset).recordReset reset).maxEntries = maxEntries := rfl
    have hsecond : ((firstLog maxEntries reset).recordReset reset).bootCount = 1 + 1 := rfl
    rw [hmax] at hread
    rw [h _ hspec.toLoadsAs, extended, hspec.stored, read_text_firstLog, hread, hsecond] at hcount
    exact absurd hcount (by decide)

/-- A boot that leaves nothing of a history does not keep it. -/
theorem not_kept_of_new (hpos : 0 < maxEntries)
    (hearlier : stored maxEntries files ≠ new maxEntries)
    (h : stored maxEntries (boot maxEntries reset ⟨outcome, none⟩ files).2 = new maxEntries) :
    ¬ HistoryKept maxEntries reset outcome files := by
  rintro ⟨hsame | hmore, -⟩
  · exact hearlier (hsame.symm.trans h)
  · exact extended_ne_new hpos (hmore.symm.trans h)

/-- Nor does one that starts again at boot 1. -/
theorem not_kept_of_startsAgain (hearlier : stored maxEntries files ≠ new maxEntries)
    (h : ∀ files', LoadsAs ⟨outcome, none⟩ files files' →
      (stored maxEntries (boot maxEntries reset ⟨outcome, none⟩ files').2).bootCount = 1) :
    ¬ HistoryKept maxEntries reset outcome files := by
  intro hkept
  refine hkept.notReplaced hearlier fun text => h _ ?_
  exact (withEarlier_spec maxEntries _ text (exists_earlier hearlier)).toLoadsAs

/-- Without a history, what is left is nothing or a first boot's log. -/
theorem kept_iff_of_new (hnone : stored maxEntries files = new maxEntries) :
    HistoryKept maxEntries reset outcome files ↔
      stored maxEntries (boot maxEntries reset ⟨outcome, none⟩ files).2 = new maxEntries ∨
        stored maxEntries (boot maxEntries reset ⟨outcome, none⟩ files).2 =
          firstLog maxEntries reset := by
  have hhistory := fun log => show IsHistory maxEntries reset files log ↔ _ by
    rw [IsHistory, hnone, extended_of_new hnone]
  exact ⟨fun h => (hhistory _).mp h.history,
    fun h => ⟨(hhistory _).mpr h, fun hearlier => absurd hnone hearlier⟩⟩

/-- The text is written: it takes the log's place, unless the log stays. -/
theorem kept_iff_of_written (hpos : 0 < maxEntries)
    (hcreate : (⟨outcome, none⟩ : FileEnv LogSite).ok .create = true)
    (hwritten : ((⟨outcome, none⟩ : FileEnv LogSite).ok .flush &&
      (⟨outcome, none⟩ : FileEnv LogSite).ok .close) = true) :
    HistoryKept maxEntries reset outcome files ↔
      loadOk ⟨outcome, none⟩ files = true ∨
        logStays ⟨outcome, none⟩ (logThere ⟨outcome, none⟩ files) = true ∨
        stored maxEntries files = new maxEntries := by
  have hafter : ∀ files', LoadsAs ⟨outcome, none⟩ files files' →
      stored maxEntries (boot maxEntries reset ⟨outcome, none⟩ files').2 =
        if logStays ⟨outcome, none⟩ (logThere ⟨outcome, none⟩ files) then stored maxEntries files'
        else read maxEntries (savedText maxEntries reset ⟨outcome, none⟩ files') := by
    intro files' hloads
    rw [stored_boot, afterSave, hcreate, hwritten, hloads.logThere]
    rfl
  by_cases hstays : logStays ⟨outcome, none⟩ (logThere ⟨outcome, none⟩ files) = true
  · simp only [hstays, if_true, true_or, or_true, iff_true] at hafter ⊢
    exact kept_of_unchanged hafter
  simp only [hstays, Bool.false_eq_true, if_false, false_or] at hafter ⊢
  cases hload : loadOk ⟨outcome, none⟩ files with
  | true =>
      simp only [true_or, iff_true]
      refine kept_of_extended fun files' hloads => ?_
      rw [hafter files' hloads, savedText, loadedLog, hloads.loadOk, hload]
      rfl
  | false =>
      have hfirst : ∀ files', LoadsAs ⟨outcome, none⟩ files files' →
          stored maxEntries (boot maxEntries reset ⟨outcome, none⟩ files').2 =
            firstLog maxEntries reset := by
        intro files' hloads
        rw [hafter files' hloads, savedText_of_not_loadOk (hloads.loadOk.trans hload),
          read_text_firstLog]
      simp only [Bool.false_eq_true, false_or]
      constructor
      · intro hkept
        by_contra hearlier
        refine not_kept_of_startsAgain hearlier (fun files' hloads => ?_) hkept
        rw [hfirst files' hloads, firstLog_eq hpos]
      · intro hnone
        exact (kept_iff_of_new hnone).mpr (.inr (hfirst files ⟨rfl, rfl⟩))

/-- Writing the text fails: a log in place stays, and without one a part of the text is left
when it cannot be removed. -/
theorem kept_iff_of_not_written (hpos : 0 < maxEntries)
    (hcreate : (⟨outcome, none⟩ : FileEnv LogSite).ok .create = true)
    (hwritten : ((⟨outcome, none⟩ : FileEnv LogSite).ok .flush &&
      (⟨outcome, none⟩ : FileEnv LogSite).ok .close) = false) :
    HistoryKept maxEntries reset outcome files ↔
      logThere ⟨outcome, none⟩ files = true ∨ stored maxEntries files = new maxEntries ∧
        ((⟨outcome, none⟩ : FileEnv LogSite).ok .discard = true ∨
          writtenBytes ⟨outcome, none⟩ < firstCount.length ∨
          (firstLog maxEntries reset).text.length ≤ writtenBytes ⟨outcome, none⟩ + 1) := by
  have hafter : ∀ files', LoadsAs ⟨outcome, none⟩ files files' →
      stored maxEntries (boot maxEntries reset ⟨outcome, none⟩ files').2 =
        if logThere ⟨outcome, none⟩ files then stored maxEntries files'
        else if (⟨outcome, none⟩ : FileEnv LogSite).ok .discard then new maxEntries
        else read maxEntries ((savedText maxEntries reset ⟨outcome, none⟩ files').take
          (writtenBytes ⟨outcome, none⟩)) := by
    intro files' hloads
    rw [stored_boot, afterSave, hcreate, hwritten, hloads.logThere]
    rfl
  cases hthere : logThere ⟨outcome, none⟩ files with
  | true =>
      simp only [hthere, if_true, true_or, iff_true] at hafter ⊢
      exact kept_of_unchanged hafter
  | false =>
      simp only [hthere, Bool.false_eq_true, if_false, false_or] at hafter ⊢
      by_cases hnone : stored maxEntries files = new maxEntries
      · rw [kept_iff_of_new hnone, hafter files ⟨rfl, rfl⟩, savedText_of_new hnone]
        simp only [hnone, true_and]
        split_ifs with hdiscard
        · simp [hdiscard]
        · rcases Nat.lt_or_ge (writtenBytes ⟨outcome, none⟩) firstCount.length with hk | hk
          · simp [read_take_of_lt reset hpos hk, hk]
          · obtain ⟨hcount, hfirst⟩ := read_take_of_le reset hpos hk
            have hne : read maxEntries ((firstLog maxEntries reset).text.take
                (writtenBytes ⟨outcome, none⟩)) ≠ new maxEntries := fun h => by
              rw [h] at hcount
              exact absurd hcount (by simp [new])
            simp [hfirst, hne, hdiscard, Nat.not_lt.mpr hk]
      · simp only [hnone, false_and, iff_false]
        have hload : loadOk ⟨outcome, none⟩ files = false :=
          loadOk_of_not_logThere hthere (exists_earlier hnone)
        have hpart : ∀ files', LoadsAs ⟨outcome, none⟩ files files' →
            savedText maxEntries reset ⟨outcome, none⟩ files' =
              (firstLog maxEntries reset).text :=
          fun files' hloads => savedText_of_not_loadOk (hloads.loadOk.trans hload)
        split_ifs at hafter with hdiscard
        · exact not_kept_of_new hpos hnone (hafter files ⟨rfl, rfl⟩)
        · rcases Nat.lt_or_ge (writtenBytes ⟨outcome, none⟩) firstCount.length with hk | hk
          · refine not_kept_of_new hpos hnone ?_
            rw [hafter files ⟨rfl, rfl⟩, hpart files ⟨rfl, rfl⟩, read_take_of_lt reset hpos hk]
          · refine not_kept_of_startsAgain hnone fun files' hloads => ?_
            rw [hafter files' hloads, hpart files' hloads]
            exact (read_take_of_le reset hpos hk).1

end Kept

/-- A log of two boots. -/
def twoBoots : LogFiles where
  durable
    | .log => some (((new resetLogEntries).recordReset powerOnReset).recordReset
        powerOnReset).text
    | .temp => none
  stream _ := none

/-- Only opening the log for reading fails. -/
def readFails (site : LogSite) : FileOutcome := if site = .read then .failed 0 else .done

end ResetLog

end OmegaStick
