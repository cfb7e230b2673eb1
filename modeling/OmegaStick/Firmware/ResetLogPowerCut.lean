import OmegaStick.Firmware.ResetLogBoots

/-!
# The reset log under power cuts

Boots with no files at first, each running load, record and save, with the
power lost before any operation and any renaming over an existing log refused.
`LogBoots` keeps beside the files what has been saved so far.  A save that was
cut off counts as complete from the load on that finds its log in place; the
plain count, by the saves that ran to their end, is kept next to it.
-/

namespace OmegaStick

open FileM TransitionSystem ResetLog

/-- The files, and what was saved in them. -/
structure LogBoots where
  files : LogFiles
  /-- The last completely saved log. -/
  saved : ResetLog
  /-- The log of the save that was interrupted since. -/
  interrupted : Option ResetLog
  /-- The log of the last save that ran to its end. -/
  completed : ResetLog
  /-- The logs of the saves that were interrupted since, newest first. -/
  attempts : List ResetLog

namespace LogBoots

/-- No files. -/
def Fresh (maxEntries : ℕ) (s : LogBoots) : Prop :=
  s.files.durable = (fun _ => none) ∧ s.saved = .new maxEntries ∧ s.interrupted = none ∧
    s.completed = .new maxEntries ∧ s.attempts = []

/-- One boot: load, record and save, until the power is lost. -/
def next (maxEntries : ℕ) (s : LogBoots) (env : FileEnv LogSite) (reset : Reset) : LogBoots :=
  match load maxEntries env s.files with
  | (none, files) => { s with files := files }
  | (some (_, log), files) =>
      let recorded := log.recordReset reset
      match save recorded env files with
      | (some true, files) => ⟨files, recorded, none, recorded, []⟩
      | (_, files) => ⟨files, log, some recorded, s.completed, recorded :: s.attempts⟩

/-- Any number of boots, with power cuts and refused renames. -/
def boots (maxEntries : ℕ) : TransitionSystem LogBoots (FileEnv LogSite × Reset) where
  init := Fresh maxEntries
  step s a t := OnlyRefusals a.1 ∧ t = s.next maxEntries a.1 a.2

/-! ## What is stored, boot after boot -/

/-- A log is the last one saved, or the interrupted one. -/
structure Yields (s : LogBoots) (log : ResetLog) : Prop where
  current : log = s.saved ∨ s.interrupted = some log
  since : log = s.completed ∨ log ∈ s.attempts

/-- What holds of the files between boots. -/
structure Kept (maxEntries : ℕ) (s : LogBoots) : Prop where
  yields : s.Yields (stored maxEntries s.files)
  writable : (stored maxEntries s.files).Writable
  maxEntries : (stored maxEntries s.files).maxEntries = maxEntries

theorem kept_of_fresh {maxEntries : ℕ} {s : LogBoots} (h : Fresh maxEntries s) :
    Kept maxEntries s := by
  obtain ⟨hfiles, hsaved, -, hcompleted, -⟩ := h
  have hstored : stored maxEntries s.files = .new maxEntries :=
    stored_of_none (by rw [hfiles]) (by rw [hfiles])
  exact ⟨⟨.inl (hstored.trans hsaved.symm), .inl (hstored.trans hcompleted.symm)⟩,
    hstored ▸ writable_new maxEntries, by rw [hstored]; rfl⟩

/-- A load that returns yields what is stored, leaves it so, and the log in place. -/
theorem load_returns {maxEntries : ℕ} {env : FileEnv LogSite} (henv : OnlyRefusals env)
    {files files' : LogFiles} {result : Bool × ResetLog}
    (h : load maxEntries env files = (some result, files')) :
    result = (true, stored maxEntries files) ∧
      stored maxEntries files' = stored maxEntries files ∧ InPlace files' := by
  have hloaded := wp_returns (wp_load maxEntries env files) h
  have hread : env.ok .read = true := henv _ (by decide)
  have hrecover : env.ok .recover = true := henv _ (by decide)
  have hok : loadOk env files = true := by
    unfold loadOk
    split <;> simp [hread, hrecover]
  refine ⟨by rw [hloaded.result, hok, if_pos rfl], hloaded.stored, ?_⟩
  cases hthere : (files'.durable .log).isSome with
  | true => exact .inl hthere
  | false =>
      have hlog := hloaded.log
      rw [hthere, logThere, hrecover, Bool.and_true] at hlog
      rw [hloaded.temp hthere]
      refine .inr ?_
      cases htemp : files.durable .temp with
      | none => rfl
      | some text => simp [htemp] at hlog

/-- A save that returns has saved its log; one that is cut off has left the old
log or the new one. -/
theorem save_returns (maxEntries : ℕ) {env : FileEnv LogSite} (henv : OnlyRefusals env)
    {files files' : LogFiles} {log : ResetLog} {ok : Bool}
    (h : save log env files = (some ok, files')) :
    ok = true ∧ stored maxEntries files' = read maxEntries log.text := by
  have hok : ∀ site, site ≠ .replace → env.ok site = true := henv
  obtain ⟨hreturned, hstored⟩ := wp_returns (wp_save maxEntries env files log) h
  have hcreate := hok .create (by decide)
  have hflush := hok .flush (by decide)
  have hclose := hok .close (by decide)
  have hremove := hok .remove (by decide)
  have hretry := hok .retry (by decide)
  refine ⟨by simp [hreturned, saveOk, hcreate, hflush, hclose, hretry], ?_⟩
  rw [hstored]
  simp [afterSave, logStays, hcreate, hflush, hclose, hremove]

theorem Kept.next {maxEntries : ℕ} {s : LogBoots} (hs : Kept maxEntries s)
    {env : FileEnv LogSite} (henv : OnlyRefusals env) (reset : Reset) :
    Kept maxEntries (s.next maxEntries env reset) := by
  unfold LogBoots.next
  split
  -- cut while the log is loaded: nothing has changed
  · rename_i files hload
    have hsame := wp_cuts (wp_load maxEntries env s.files) hload
    refine ⟨⟨?_, ?_⟩, hsame ▸ hs.writable, by rw [hsame]; exact hs.maxEntries⟩
    · rw [hsame]
      exact hs.yields.current
    · rw [hsame]
      exact hs.yields.since
  · rename_i ok log files hload
    obtain ⟨hresult, hstored, hplace⟩ := load_returns henv hload
    obtain ⟨-, rfl⟩ := Prod.mk.inj hresult
    have hwritable := hs.writable.recordReset reset
    -- what is written is read back as the same log
    have hread : read maxEntries ((stored maxEntries s.files).recordReset reset).text =
        (stored maxEntries s.files).recordReset reset := by
      have h := read_text hwritable
      rwa [recordReset_maxEntries, hs.maxEntries] at h
    dsimp only
    split
    · rename_i files' hsave
      obtain ⟨-, hsaved⟩ := save_returns maxEntries henv hsave
      rw [hread] at hsaved
      refine ⟨⟨.inl hsaved, .inl hsaved⟩, hsaved ▸ hwritable, ?_⟩
      rw [hsaved]
      exact hs.maxEntries
    · rename_i result files' hnot hsave
      cases result with
      | some ok =>
          obtain ⟨rfl, -⟩ := save_returns maxEntries henv hsave
          exact absurd rfl hnot
      | none =>
          have heither := wp_cuts (wp_save maxEntries env files _) hsave henv hplace
          rw [hread, hstored] at heither
          -- cut during the save: the old log, or the new one
          rcases heither with hold | hnew
          · refine ⟨⟨.inl hold, ?_⟩, hold ▸ hs.writable, by rw [hold]; exact hs.maxEntries⟩
            rw [hold]
            exact hs.yields.since.imp_right (List.mem_cons_of_mem _)
          · refine ⟨⟨.inr (by rw [hnew]), .inr (by rw [hnew]; exact List.mem_cons_self ..)⟩,
              hnew ▸ hwritable, by rw [hnew]; exact hs.maxEntries⟩

/-- **The reset log survives power cuts.** Every load that returns succeeds, and
yields exactly the last completely saved log or exactly the log of the
interrupted save; counted by the saves that ran to their end, it is the log of
the last of them or of a save made since. -/
theorem load_yields {maxEntries : ℕ} {s : LogBoots} (hs : Reachable (boots maxEntries) s)
    {env : FileEnv LogSite} (henv : OnlyRefusals env) {result : Bool × ResetLog}
    {files : LogFiles} (hload : load maxEntries env s.files = (some result, files)) :
    result.1 = true ∧ (result.2 = s.saved ∨ s.interrupted = some result.2) ∧
      (result.2 = s.completed ∨ result.2 ∈ s.attempts) := by
  have hkept : Kept maxEntries s := by
    refine Reachable.invariant (T := boots maxEntries) ?_ ?_ hs
    · exact fun s h => kept_of_fresh h
    · rintro s ⟨env, reset⟩ t h ⟨henv, rfl⟩
      exact h.next henv reset
  obtain ⟨rfl, -, -⟩ := load_returns henv hload
  exact ⟨rfl, hkept.yields.current, hkept.yields.since⟩

/-! ## A cut between the removal and the renaming -/

def noFiles : LogBoots where
  files := ⟨fun _ => none, fun _ => none⟩
  saved := .new resetLogEntries
  interrupted := none
  completed := .new resetLogEntries
  attempts := []

/-- Everything succeeds, and the power stays on. -/
def quiet : FileEnv LogSite := ⟨fun _ => .done, none⟩

/-- The log is removed because it could not be replaced, and then the power is lost. -/
def cutInTheGap : FileEnv LogSite :=
  ⟨fun site => if site = .replace then .failed 0 else .done, some .retry⟩

/-- The state after a boot that is cut in the gap. -/
def afterGap : LogBoots :=
  (noFiles.next resetLogEntries quiet powerOnReset).next resetLogEntries cutInTheGap powerOnReset

/-- No log is in place, and a load yields what was being saved. -/
theorem load_yields_afterGap :
    afterGap.files.durable .log = none ∧
      ∃ log, (load resetLogEntries quiet afterGap.files).1 = some (true, log) ∧
        log.bootCount = 2 ∧ (log = afterGap.saved ∨ afterGap.interrupted = some log) := by
  have hquiet : OnlyRefusals quiet := fun _ _ => rfl
  have hgap : OnlyRefusals cutInTheGap := by
    intro site hsite
    cases site <;> first | rfl | exact absurd rfl hsite
  have hfresh : Reachable (boots resetLogEntries) noFiles := .init ⟨rfl, rfl, rfl, rfl, rfl⟩
  have hfirst : Reachable (boots resetLogEntries)
      (noFiles.next resetLogEntries quiet powerOnReset) :=
    .step (a := (quiet, powerOnReset)) hfresh ⟨hquiet, rfl⟩
  have hreach : Reachable (boots resetLogEntries) afterGap :=
    .step (a := (cutInTheGap, powerOnReset)) hfirst ⟨hgap, rfl⟩
  have hload : ((load resetLogEntries quiet afterGap.files).1.map fun result =>
      result.2.bootCount) = some 2 := by decide +kernel
  obtain ⟨⟨ok, log⟩, hresult, hcount⟩ := Option.map_eq_some_iff.mp hload
  have hrun : load resetLogEntries quiet afterGap.files =
      (some (ok, log), (load resetLogEntries quiet afterGap.files).2) := by
    rw [← hresult]
  obtain ⟨hok, hcurrent, -⟩ := load_yields hreach hquiet hrun
  dsimp only at hok hcurrent hcount
  rw [hok] at hresult
  exact ⟨by decide +kernel, log, hresult, hcount, hcurrent⟩

end LogBoots

end OmegaStick
