import OmegaStick.Firmware.ResetLogFile
import OmegaStick.Library.Transition

/-!
# The reset log over boots

`load` and `save` as programs over the log and its temporary sibling, and the
boot of `main.cpp` that runs them one after the other.  What a log's files
store is what an undisturbed load makes of them: the log file if there is one,
else the temporary file.
-/

namespace OmegaStick

open FileM TransitionSystem

/-- The two files. -/
inductive LogFile where
  | log
  | temp
  deriving DecidableEq, Repr

/-- The operations of `load` and `save`, in the order of the source. -/
inductive LogSite where
  /-- `load` moves a left temporary file into place -/
  | recover
  | read
  | create
  | flush
  | close
  /-- `save` removes a temporary file it could not write -/
  | discard
  | replace
  /-- `save` removes the old log when it could not be replaced -/
  | remove
  | retry
  deriving DecidableEq, Repr

abbrev LogFiles := FileStore LogFile

abbrev LogM (α : Type) := FileM LogSite LogFile α

/-- The arguments of `record`: a reset that a line of the file can hold. -/
structure Reset where
  reason : ℤ
  name : List UInt8
  abnormal : Bool
  slot : List UInt8
  reason_le : reason.natAbs ≤ ResetLog.int32Max
  name_line : 10 ∉ name ∧ name.getLast? ≠ some 13
  slot_label : ∀ c ∈ slot, c ≠ 44 ∧ c ≠ 10 ∧ c ≠ 13

/-- What `main.cpp` records of a boot in a slot. -/
def Reset.ofBoot (reason : ResetReason) (slot : List UInt8)
    (hslot : ∀ c ∈ slot, c ≠ 44 ∧ c ≠ 10 ∧ c ≠ 13) : Reset where
  reason := reason.code
  name := ascii reason.name
  abnormal := reason.isAbnormal
  slot := slot
  reason_le := by cases reason <;> decide
  name_line := by cases reason <;> decide
  slot_label := hslot

def powerOnReset : Reset := .ofBoot .powerOn (ascii "ota_0") (by decide +kernel)

/-- The power may be lost, but of the operations only the renaming over an
existing log may fail. -/
def OnlyRefusals (env : FileEnv LogSite) : Prop :=
  ∀ site, site ≠ .replace → env.ok site = true

namespace ResetLog

/-! ## The programs -/

/-- The rest of `load`, with the log file in place. -/
def readLog (maxEntries : ℕ) : LogM (Bool × ResetLog) := do
  match ← readFile .read .log with
  | none => return (false, new maxEntries)
  | some text => return (true, read maxEntries text)

/-- `load`: whether it succeeded, and the log in memory afterwards. -/
def load (maxEntries : ℕ) : LogM (Bool × ResetLog) := do
  if ← fileExists .log then readLog maxEntries
  else if ← fileExists .temp then
    if ← rename .recover .temp .log then readLog maxEntries
    else return (false, new maxEntries)
  else return (true, new maxEntries)

def recordReset (log : ResetLog) (reset : Reset) : ResetLog :=
  log.record reset.reason reset.name reset.abnormal reset.slot

/-- The temporary file could not be written. -/
def discardTemp : LogM Bool := do
  let _ ← FileM.remove LogSite.discard LogFile.temp
  return false

/-- The temporary file is complete; it takes the place of the log. -/
def replaceLog : LogM Bool := do
  if ← rename .replace .temp .log then return true
  else
    let _ ← FileM.remove LogSite.remove LogFile.log
    rename .retry .temp .log

/-- The text is flushed. -/
def closeTemp : LogM Bool := do
  if ← close .close .temp then replaceLog
  else discardTemp

/-- `save` -/
def save (log : ResetLog) : LogM Bool := do
  if ← openTruncate .create .temp then
    writeAll .temp (log.textLines.map (· ++ [10]))
    if ← flush .flush .temp then closeTemp
    else discardTemp
  else return false

/-- The reset log at boot, as `main.cpp` runs it: it goes on after a failed load. -/
def boot (maxEntries : ℕ) (reset : Reset) : LogM Bool := do
  let (_, log) ← load maxEntries
  save (log.recordReset reset)

/-! ## Runs that end -/

theorem returns_load (maxEntries : ℕ) : Returns (load maxEntries) := by
  have hread : Returns (readLog maxEntries) := by
    refine .bind (.atSite _ _) fun text => ?_
    cases text with
    | none => exact .pure _
    | some text => exact .pure _
  exact .bind (.fileExists _) fun _ => .ite _ hread
    (.bind (.fileExists _) fun _ => .ite _ (.bind (.atSite _ _) fun _ => .ite _ hread (.pure _))
      (.pure _))

theorem returns_save (log : ResetLog) : Returns (save log) := by
  have hdiscard : Returns discardTemp := .bind (.atSite _ _) fun _ => .pure _
  have hreplace : Returns replaceLog := .bind (.atSite _ _) fun _ =>
    .ite _ (.pure _) (.bind (.atSite _ _) fun _ => .atSite _ _)
  have hclose : Returns closeTemp := .bind (.atSite _ _) fun _ => .ite _ hreplace hdiscard
  exact .bind (.atSite _ _) fun _ => .ite _
    (.bind (.writeAll _ _) fun _ => .bind (.atSite _ _) fun _ => .ite _ hclose hdiscard) (.pure _)

theorem returns_boot (maxEntries : ℕ) (reset : Reset) : Returns (boot maxEntries reset) :=
  .bind (returns_load maxEntries) fun _ => returns_save _

/-! ## What the files store -/

/-- What an undisturbed load yields. -/
def stored (maxEntries : ℕ) (files : LogFiles) : ResetLog :=
  match (files.durable .log).or (files.durable .temp) with
  | some text => read maxEntries text
  | none => new maxEntries

/-- A log file is in place, or there is nothing. -/
def InPlace (files : LogFiles) : Prop :=
  (files.durable .log).isSome ∨ files.durable .temp = none

@[simp] theorem stored_powerCut (maxEntries : ℕ) (files : LogFiles) :
    stored maxEntries files.powerCut = stored maxEntries files := rfl

theorem stored_of_log {maxEntries : ℕ} {files : LogFiles} {text : List UInt8}
    (h : files.durable .log = some text) : stored maxEntries files = read maxEntries text := by
  rw [stored, h]
  rfl

theorem stored_of_temp {maxEntries : ℕ} {files : LogFiles} {text : List UInt8}
    (hlog : files.durable .log = none) (h : files.durable .temp = some text) :
    stored maxEntries files = read maxEntries text := by
  rw [stored, hlog, h]
  rfl

theorem stored_of_none {maxEntries : ℕ} {files : LogFiles} (hlog : files.durable .log = none)
    (h : files.durable .temp = none) : stored maxEntries files = new maxEntries := by
  rw [stored, hlog, h]
  rfl

/-- Whatever is done to the temporary file, a log file in place is what is stored. -/
theorem stored_congr {maxEntries : ℕ} {files files' : LogFiles}
    (hlog : (files.durable .log).isSome) (h : files'.durable .log = files.durable .log) :
    stored maxEntries files' = stored maxEntries files := by
  obtain ⟨text, htext⟩ := Option.isSome_iff_exists.mp hlog
  rw [stored_of_log htext, stored_of_log (h.trans htext)]

/-! ## What is recorded can be written -/

theorem writable_new (maxEntries : ℕ) : (new maxEntries).Writable :=
  ⟨by simp [new], Nat.zero_le _⟩

theorem Writable.recordReset {log : ResetLog} (h : log.Writable) (reset : Reset) :
    (log.recordReset reset).Writable where
  entries := by
    intro entry hentry
    have hmem := List.mem_of_mem_drop hentry
    rcases List.mem_append.mp hmem with hmem | hmem
    · exact h.entries entry hmem
    · rw [List.mem_singleton.mp hmem]
      exact ⟨reset.reason_le, reset.name_line, reset.slot_label⟩
  length := by
    simp only [ResetLog.recordReset, record, trim, List.length_drop]
    omega

@[simp] theorem recordReset_maxEntries (log : ResetLog) (reset : Reset) :
    (log.recordReset reset).maxEntries = log.maxEntries := rfl

/-! ## What a load does -/

/-- Whether `load` succeeds: the file it is to read can be read, and moved into
place first when it is the temporary one. -/
def loadOk (env : FileEnv LogSite) (files : LogFiles) : Bool :=
  match files.durable .log, files.durable .temp with
  | some _, _ => env.ok .read
  | none, some _ => env.ok .recover && env.ok .read
  | none, none => true

/-- Whether a log file is in place once `load` is done. -/
def logThere (env : FileEnv LogSite) (files : LogFiles) : Bool :=
  (files.durable .log).isSome || ((files.durable .temp).isSome && env.ok .recover)

/-- What a load leaves, however its operations go. -/
structure Loaded (maxEntries : ℕ) (env : FileEnv LogSite) (files : LogFiles)
    (result : Bool × ResetLog) (files' : LogFiles) : Prop where
  result : result = (loadOk env files,
    if loadOk env files then stored maxEntries files else new maxEntries)
  stored : ResetLog.stored maxEntries files' = ResetLog.stored maxEntries files
  log : (files'.durable .log).isSome = logThere env files
  temp : (files'.durable .log).isSome = false → files' = files

theorem wp_readLog {maxEntries : ℕ} {env : FileEnv LogSite} {files : LogFiles} {text : List UInt8}
    (h : files.durable .log = some text) :
    wp env (readLog maxEntries)
      (fun result files' => result = (env.ok .read,
        if env.ok .read then read maxEntries text else new maxEntries) ∧ files' = files)
      (fun files' => files' = files.powerCut) files := by
  rw [readLog, wp_bind]
  refine wp_atSite_of (fun _ => rfl) ?_
  rw [FileEnv.ok]
  cases (env.outcome .read).ok with
  | false => exact ⟨rfl, rfl⟩
  | true =>
      simp only [if_true, h]
      exact ⟨rfl, rfl⟩

theorem wp_load (maxEntries : ℕ) (env : FileEnv LogSite) (files : LogFiles) :
    wp env (load maxEntries) (Loaded maxEntries env files)
      (fun files' => stored maxEntries files' = stored maxEntries files) files := by
  rw [load, wp_bind, wp_fileExists, wp_ite]
  constructor
  -- the log is there, and is read
  · intro hlog
    obtain ⟨text, htext⟩ := Option.isSome_iff_exists.mp hlog
    refine wp_mono (wp_readLog htext) ?_ ?_
    · rintro result files' ⟨rfl, rfl⟩
      exact ⟨by simp [loadOk, htext, stored_of_log htext], rfl, by simp [logThere, htext],
        fun _ => rfl⟩
    · rintro files' rfl
      rfl
  -- there is none: a temporary file is what an interrupted save left
  intro hlog
  have hlog : files.durable .log = none := by simpa using hlog
  rw [wp_bind, wp_fileExists, wp_ite]
  constructor
  · intro htemp
    obtain ⟨text, htext⟩ := Option.isSome_iff_exists.mp htemp
    rw [wp_bind]
    refine wp_atSite_of (fun _ => rfl) ?_
    cases hrecover : (env.outcome .recover).ok with
    | false =>
        simp only [Bool.false_and, Bool.false_eq_true, if_false, wp_pure]
        exact ⟨by simp [loadOk, hlog, htext, FileEnv.ok, hrecover], rfl,
          by simp [logThere, hlog, FileEnv.ok, hrecover], fun _ => rfl⟩
    | true =>
        simp only [htext, Option.isSome_some, Bool.and_self, if_true]
        -- it takes the place of the log, and shows the same entries
        have hmoved : (files.rename LogFile.temp LogFile.log).durable .log = some text := by
          simp [FileStore.rename, htext]
        have hstored : stored maxEntries (files.rename LogFile.temp LogFile.log) =
            stored maxEntries files := by
          rw [stored_of_log hmoved, stored_of_temp hlog htext]
        have hok : loadOk env files = env.ok .read := by
          simp [loadOk, hlog, htext, FileEnv.ok, hrecover]
        refine wp_mono (wp_readLog hmoved) ?_ ?_
        · rintro result files' ⟨rfl, rfl⟩
          exact ⟨by rw [hok, stored_of_temp hlog htext], hstored,
            by simp [logThere, htext, FileEnv.ok, hrecover, hmoved], by simp [hmoved]⟩
        · rintro files' rfl
          exact hstored
  · intro htemp
    have htemp : files.durable .temp = none := by simpa using htemp
    exact ⟨by simp [loadOk, hlog, htemp, stored_of_none hlog htemp], rfl,
      by simp [logThere, hlog, htemp], fun _ => rfl⟩

/-! ## What a save does -/

/-- The log stays as it was: there is one, and it can be neither replaced nor removed. -/
def logStays (env : FileEnv LogSite) (logThere : Bool) : Bool :=
  logThere && !env.ok .replace && !env.ok .remove && !env.ok .retry

/-- What is stored after a save of `text`, however its operations go. -/
def afterSave (maxEntries : ℕ) (env : FileEnv LogSite) (old : ResetLog) (logThere : Bool)
    (text : List UInt8) : ResetLog :=
  if !env.ok .create then old
  else if env.ok .flush && env.ok .close then
    if logStays env logThere then old else read maxEntries text
  else if logThere then old
  else if env.ok .discard then new maxEntries
  else
    let failed := if env.ok .flush then env.outcome .close else env.outcome .flush
    read maxEntries (text.take failed.visible)

/-- One of the two logs is stored. -/
def StoredEither (maxEntries : ℕ) (old new : ResetLog) (files : LogFiles) : Prop :=
  stored maxEntries files = old ∨ stored maxEntries files = new

theorem stored_rename {maxEntries : ℕ} {files : LogFiles} {text : List UInt8}
    (h : files.durable .temp = some text) :
    stored maxEntries (files.rename LogFile.temp LogFile.log) = read maxEntries text := by
  refine stored_of_log ?_
  simp [FileStore.rename, h]

theorem wp_replaceLog (maxEntries : ℕ) (env : FileEnv LogSite) {files : LogFiles}
    {text : List UInt8} (h : files.durable .temp = some text) :
    wp env replaceLog
      (fun ok files' => ok = (env.ok .replace || env.ok .retry) ∧
        stored maxEntries files' =
          if logStays env (files.durable .log).isSome then stored maxEntries files
          else read maxEntries text)
      (StoredEither maxEntries (stored maxEntries files) (read maxEntries text)) files := by
  rw [replaceLog, wp_bind]
  refine wp_atSite_of (fun _ => .inl rfl) ?_
  cases hreplace : (env.outcome .replace).ok with
  -- renamed at once, over the log that was there
  | true =>
      simp only [h, Option.isSome_some, Bool.and_self, if_true, wp_pure]
      exact ⟨by simp [FileEnv.ok, hreplace],
        by simp [logStays, FileEnv.ok, hreplace, stored_rename h]⟩
  | false =>
      simp only [Bool.false_and, Bool.false_eq_true, if_false, wp_bind]
      refine wp_atSite_of (fun _ => .inl rfl) ?_
      -- the log is in the way and is to be removed
      cases hremove : (env.outcome .remove).ok with
      | false =>
          simp only [Bool.false_eq_true, if_false]
          refine wp_atSite_of (fun _ => .inl rfl) ?_
          cases hretry : (env.outcome .retry).ok with
          | true =>
              simp only [h, Option.isSome_some, Bool.and_self, if_true]
              exact ⟨by simp [FileEnv.ok, hretry],
                by simp [logStays, FileEnv.ok, hretry, stored_rename h]⟩
          | false =>
              simp only [Bool.false_and, Bool.false_eq_true, if_false]
              refine ⟨by simp [FileEnv.ok, hreplace, hretry], ?_⟩
              cases hlog : files.durable .log with
              | none => simp [logStays, stored_of_temp hlog h]
              | some old => simp [logStays, FileEnv.ok, hreplace, hremove, hretry]
      | true =>
          simp only [if_true]
          have htemp : (files.remove LogFile.log).durable .temp = some text := by
            simp [FileStore.remove, h]
          -- from here on the log is gone, and the temporary file stands for it
          have hstored : stored maxEntries (files.remove LogFile.log) = read maxEntries text :=
            stored_of_temp (by simp [FileStore.remove]) htemp
          refine wp_atSite_of (fun _ => .inr hstored) ?_
          cases hretry : (env.outcome .retry).ok with
          | true =>
              simp only [htemp, Option.isSome_some, Bool.and_self, if_true]
              exact ⟨by simp [FileEnv.ok, hretry],
                by simp [logStays, FileEnv.ok, hretry, stored_rename htemp]⟩
          | false =>
              simp only [Bool.false_and, Bool.false_eq_true, if_false]
              exact ⟨by simp [FileEnv.ok, hreplace, hretry],
                by simp [logStays, FileEnv.ok, hremove, hstored]⟩

/-- What was written, and then could not be finished, is removed or stays as it is. -/
theorem wp_discardTemp (maxEntries : ℕ) (env : FileEnv LogSite) {files : LogFiles}
    {text : List UInt8} (h : files.durable .temp = some text) :
    wp env discardTemp
      (fun ok files' => ok = false ∧ files'.durable .log = files.durable .log ∧
        (files.durable .log = none →
          stored maxEntries files' = if env.ok .discard then new maxEntries
            else read maxEntries text))
      (fun files' => files' = files.powerCut) files := by
  rw [discardTemp, wp_bind]
  refine wp_atSite_of (fun _ => rfl) ?_
  cases hdiscard : (env.outcome .discard).ok with
  | false =>
      simp only [Bool.false_eq_true, if_false, wp_pure]
      exact ⟨trivial, trivial, fun hlog => by simp [FileEnv.ok, hdiscard, stored_of_temp hlog h]⟩
  | true =>
      simp only [if_true, wp_pure]
      refine ⟨trivial, by simp [FileStore.remove], fun hlog => ?_⟩
      rw [FileEnv.ok, hdiscard, if_pos rfl]
      exact stored_of_none (by simp [FileStore.remove, hlog]) (by simp [FileStore.remove])

/-- Nothing of the text shows in the temporary file, or all. -/
structure Shows (files : LogFiles) (text : List UInt8) (files' : LogFiles) : Prop where
  log : files'.durable .log = files.durable .log
  temp : files'.durable .temp = some [] ∨ files'.durable .temp = some text

/-- The temporary file is open, with the text in its stream. -/
structure Writing (files : LogFiles) (text : List UInt8) (files' : LogFiles) : Prop
    extends Shows files text files' where
  stream : files'.stream .temp = some text

theorem Shows.storedEither {maxEntries : ℕ} {files files' : LogFiles} {text : List UInt8}
    (h : Shows files text files') (hplace : InPlace files) :
    StoredEither maxEntries (stored maxEntries files) (read maxEntries text) files' := by
  cases hlog : files.durable .log with
  | some old => exact .inl (stored_congr (by simp [hlog]) h.log)
  | none =>
      have htemp : files.durable .temp = none := by simpa [InPlace, hlog] using hplace
      rcases h.temp with hempty | hfull
      · left
        rw [stored_of_temp (h.log.trans hlog) hempty, read_nil, stored_of_none hlog htemp]
      · exact .inr (stored_of_temp (h.log.trans hlog) hfull)

theorem writing_of_open (log : ResetLog) (files : LogFiles) :
    Writing files log.text ((files.apply (.openTruncate .temp)).applyAll
      ((log.textLines.map (· ++ [10])).map (FileStore.Op.write LogFile.temp))) := by
  have hopen : (files.apply (.openTruncate LogFile.temp)).stream .temp = some [] := by
    simp [FileStore.apply]
  obtain ⟨hdurable, hstream⟩ :=
    FileStore.applyAll_writes LogFile.temp (log.textLines.map (· ++ [10])) _ _ hopen
  refine ⟨⟨?_, .inl ?_⟩, ?_⟩
  · rw [hdurable]
    simp [FileStore.apply]
  · rw [hdurable]
    simp [FileStore.apply]
  · rw [hstream, List.nil_append, text, List.flatMap_def]

/-- A flush shows all of the text. -/
theorem Writing.flush {files files' : LogFiles} {text : List UInt8}
    (h : Writing files text files') :
    Writing files text (files'.apply (.flush LogFile.temp)) where
  log := by
    rw [← h.log]
    simp [FileStore.apply]
  stream := h.stream
  temp := .inr (by simp [FileStore.apply, h.stream])

/-- A file that could not be written shows a part of the text, and is discarded. -/
theorem wp_discard_of_failed (maxEntries : ℕ) {env : FileEnv LogSite} {files files' : LogFiles}
    {text : List UInt8} {site : LogSite} (h : Writing files text files')
    (hcreate : env.ok .create = true) (hfailed : env.ok site = false)
    (hsite : site = .flush ∨ site = .close ∧ env.ok .flush = true) :
    wp env discardTemp
      (fun ok after => ok = false ∧
        stored maxEntries after = afterSave maxEntries env (stored maxEntries files)
          (files.durable .log).isSome text)
      (fun after => OnlyRefusals env → InPlace files →
        StoredEither maxEntries (stored maxEntries files) (read maxEntries text) after)
      (files'.spill .temp (env.outcome site).visible) := by
  have htemp : (files'.spill .temp (env.outcome site).visible).durable .temp =
      some (text.take (env.outcome site).visible) := by
    simp [FileStore.spill, h.stream]
  have hlogs : (files'.spill .temp (env.outcome site).visible).durable .log =
      files.durable .log := by
    rw [← h.log]
    simp [FileStore.spill]
  have hwrite : (env.ok .flush && env.ok .close) = false := by
    rcases hsite with rfl | ⟨rfl, -⟩ <;> simp [hfailed]
  have hoperation : (if env.ok .flush then env.outcome .close else env.outcome .flush) =
      env.outcome site := by
    rcases hsite with rfl | ⟨rfl, hflush⟩
    · simp [hfailed]
    · simp [hflush]
  refine wp_mono (wp_discardTemp maxEntries env htemp) ?_ ?_
  · rintro ok after ⟨rfl, hlog, hnone⟩
    refine ⟨rfl, ?_⟩
    rw [hlogs] at hlog hnone
    rw [afterSave, hcreate, hwrite, hoperation]
    simp only [Bool.not_true, Bool.false_eq_true, if_false]
    cases hold : files.durable .log with
    | none => simpa using hnone hold
    | some old => simpa using stored_congr (by simp [hold]) hlog
  · rintro after rfl hrefusals
    have hok := hrefusals site (by rcases hsite with rfl | ⟨rfl, -⟩ <;> decide)
    rw [hfailed] at hok
    cases hok

theorem wp_closeTemp (maxEntries : ℕ) {env : FileEnv LogSite} {files files' : LogFiles}
    {text : List UInt8} (h : Writing files text files') (hcreate : env.ok .create = true)
    (hflush : env.ok .flush = true) :
    wp env closeTemp
      (fun ok after => ok = (env.ok .close && (env.ok .replace || env.ok .retry)) ∧
        stored maxEntries after = afterSave maxEntries env (stored maxEntries files)
          (files.durable .log).isSome text)
      (fun after => OnlyRefusals env → InPlace files →
        StoredEither maxEntries (stored maxEntries files) (read maxEntries text) after) files' := by
  rw [closeTemp, wp_bind]
  refine wp_atSite_of (fun _ _ hplace => h.toShows.storedEither hplace) ?_
  cases hclose : (env.outcome .close).ok with
  | false =>
      simp only [Bool.false_eq_true, if_false]
      refine wp_mono (wp_discard_of_failed maxEntries h hcreate hclose (.inr ⟨rfl, hflush⟩)) ?_ ?_
      · rintro ok after ⟨rfl, hafter⟩
        exact ⟨by simp [FileEnv.ok, hclose], hafter⟩
      · exact fun after hafter => hafter
  | true =>
      simp only [if_true]
      have htemp : (files'.apply (.close LogFile.temp)).durable .temp = some text := by
        simp [FileStore.apply, h.stream]
      have hlog : (files'.apply (.close LogFile.temp)).durable .log = files.durable .log := by
        rw [← h.log]
        simp [FileStore.apply]
      have hshows : Shows files text (files'.apply (.close LogFile.temp)) := ⟨hlog, .inr htemp⟩
      refine wp_mono (wp_replaceLog maxEntries env htemp) ?_ ?_
      · rintro ok after ⟨rfl, hafter⟩
        refine ⟨by simp [FileEnv.ok, hclose], ?_⟩
        rw [hafter, hlog, afterSave, hcreate, hflush, FileEnv.ok, hclose]
        simp only [Bool.not_true, Bool.false_eq_true, if_false, Bool.and_self, if_true]
        split_ifs with hstays
        · simp only [logStays, Bool.and_eq_true] at hstays
          exact stored_congr hstays.1.1.1 hlog
        · rfl
      · rintro after hafter - hplace
        rcases hafter with hold | hnew
        · exact (hshows.storedEither hplace).imp hold.trans hold.trans
        · exact .inr hnew

def saveOk (env : FileEnv LogSite) : Bool :=
  env.ok .create && (env.ok .flush && (env.ok .close && (env.ok .replace || env.ok .retry)))

/-- A save, however its operations go; when only refusals happen, a power cut
leaves what was stored or what is being saved. -/
theorem wp_save (maxEntries : ℕ) (env : FileEnv LogSite) (files : LogFiles) (log : ResetLog) :
    wp env (save log)
      (fun ok after => ok = saveOk env ∧
        stored maxEntries after = afterSave maxEntries env (stored maxEntries files)
          (files.durable .log).isSome log.text)
      (fun after => OnlyRefusals env → InPlace files →
        StoredEither maxEntries (stored maxEntries files) (read maxEntries log.text) after)
      files := by
  rw [save, wp_bind]
  refine wp_atSite_of (fun _ _ _ => .inl rfl) ?_
  cases hcreate : (env.outcome .create).ok with
  | false =>
      simp only [Bool.false_eq_true, if_false, wp_pure]
      exact ⟨by simp [saveOk, FileEnv.ok, hcreate], by simp [afterSave, FileEnv.ok, hcreate]⟩
  | true =>
      simp only [if_true]
      rw [wp_bind, wp_writeAll, wp_bind]
      -- from here on the temporary file is being written, and the log still shows
      have hwriting := writing_of_open log files
      refine wp_atSite_of (fun _ _ hplace => hwriting.toShows.storedEither hplace) ?_
      have hcreateOk : env.ok .create = true := hcreate
      cases hflush : env.outcome .flush with
      | done =>
          have hflushOk : env.ok .flush = true := by rw [FileEnv.ok, hflush]; rfl
          simp only [if_true]
          refine wp_mono (wp_closeTemp maxEntries hwriting.flush hcreate hflushOk) ?_ ?_
          · rintro ok after ⟨rfl, hafter⟩
            exact ⟨by simp [saveOk, hcreateOk, hflushOk], hafter⟩
          · exact fun after hafter => hafter
      -- written, but reported late: the close goes on as if it were done
      | late =>
          have hflushOk : env.ok .flush = true := by rw [FileEnv.ok, hflush]; rfl
          simp only [if_true]
          refine wp_mono (wp_closeTemp maxEntries hwriting hcreate hflushOk) ?_ ?_
          · rintro ok after ⟨rfl, hafter⟩
            exact ⟨by simp [saveOk, hcreateOk, hflushOk], hafter⟩
          · exact fun after hafter => hafter
      -- a failed flush discards what was written
      | failed visible =>
          have hflushFailed : env.ok .flush = false := by rw [FileEnv.ok, hflush]; rfl
          have hvisible : visible = (env.outcome .flush).visible := by rw [hflush]; rfl
          simp only [Bool.false_eq_true, if_false]
          rw [hvisible]
          refine wp_mono (wp_discard_of_failed maxEntries hwriting hcreate hflushFailed
            (.inl rfl)) ?_ ?_
          · rintro ok after ⟨rfl, hafter⟩
            exact ⟨by simp [saveOk, hflushFailed], hafter⟩
          · exact fun after hafter => hafter

end ResetLog

end OmegaStick
