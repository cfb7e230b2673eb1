import OmegaStick.Library.PowerCut

/-!
# Programs over files

A program reads and writes named files through operations that may each fail,
and the power may be lost before any of them.  Every operation is made at a
site, a place in the program; the environment says for each site how the
operation there goes, and at which site, if any, the power is lost.  A program
whose sites are each passed at most once in a run can meet no other behaviour.

`wp` is the precondition for a run to end in `Q`, or in `C` when the power is
lost.  Its rules, one for each operation, take a program apart from the front.
-/

universe u

namespace FileStore

variable {Path : Type u} [DecidableEq Path]

/-- Renaming is atomic, and replaces an existing file. -/
def rename (files : FileStore Path) (src dst : Path) : FileStore Path :=
  { files with
    durable := Function.update (Function.update files.durable dst (files.durable src)) src none }

def remove (files : FileStore Path) (path : Path) : FileStore Path :=
  { files with durable := Function.update files.durable path none }

/-- The first `count` bytes of a stream reach the file, and the stream ends. -/
def spill (files : FileStore Path) (path : Path) (count : ℕ) : FileStore Path :=
  ⟨Function.update files.durable path (((files.stream path).map (·.take count)).or
      (files.durable path)), Function.update files.stream path none⟩

end FileStore

/-- How one operation goes. -/
inductive FileOutcome where
  | done
  /-- It succeeds, but what it flushes is only visible once the file is closed. -/
  | late
  /-- It fails; of what it was to write, `visible` bytes are there. -/
  | failed (visible : ℕ)
  deriving DecidableEq, Repr

namespace FileOutcome

def ok : FileOutcome → Bool
  | done | late => true
  | failed _ => false

/-- The bytes a failed write leaves. -/
def visible : FileOutcome → ℕ
  | failed visible => visible
  | _ => 0

end FileOutcome

/-- How the operations of a run go, and the site the power is lost at. -/
structure FileEnv (ι : Type u) where
  outcome : ι → FileOutcome
  cut : Option ι

/-- Whether the operation at a site succeeds. -/
def FileEnv.ok {ι : Type u} (env : FileEnv ι) (site : ι) : Bool := (env.outcome site).ok

/-- A program over files; it returns nothing when the power is lost. -/
def FileM (ι Path α : Type) : Type := FileEnv ι → FileStore Path → Option α × FileStore Path

namespace FileM

variable {ι Path α β : Type}

instance : Monad (FileM ι Path) where
  pure a := fun _ files => (some a, files)
  bind m f := fun env files =>
    match m env files with
    | (some a, files) => f a env files
    | (none, files) => (none, files)

/-! ## Operations -/

section Operations

variable [DecidableEq ι]

/-- One operation at its site, unless the power is lost there. -/
def atSite (site : ι) (effect : FileOutcome → FileStore Path → α × FileStore Path) :
    FileM ι Path α := fun env files =>
  if env.cut = some site then (none, files.powerCut)
  else
    let (a, files) := effect (env.outcome site) files
    (some a, files)

/-- Whether there is such a file. -/
def fileExists (path : Path) : FileM ι Path Bool := fun _ files =>
  (some (files.durable path).isSome, files)

/-- The whole text of a file, when it can be opened. -/
def readFile (site : ι) (path : Path) : FileM ι Path (Option (List UInt8)) :=
  atSite site fun outcome files =>
    (if outcome.ok then files.durable path else none, files)

variable [DecidableEq Path]

def rename (site : ι) (src dst : Path) : FileM ι Path Bool :=
  atSite site fun outcome files =>
    if outcome.ok && (files.durable src).isSome then (true, files.rename src dst)
    else (false, files)

def remove (site : ι) (path : Path) : FileM ι Path Bool :=
  atSite site fun outcome files =>
    if outcome.ok then (true, files.remove path) else (false, files)

def openTruncate (site : ι) (path : Path) : FileM ι Path Bool :=
  atSite site fun outcome files =>
    if outcome.ok then (true, files.apply (.openTruncate path)) else (false, files)

/-- What is written stays in the stream, whose failures the flush reports. -/
def write (path : Path) (text : List UInt8) : FileM ι Path Unit := fun _ files =>
  (some (), files.apply (.write path text))

def flush (site : ι) (path : Path) : FileM ι Path Bool :=
  atSite site fun outcome files =>
    match outcome with
    | .done => (true, files.apply (.flush path))
    | .late => (true, files)
    | .failed visible => (false, files.spill path visible)

def close (site : ι) (path : Path) : FileM ι Path Bool :=
  atSite site fun outcome files =>
    if outcome.ok then (true, files.apply (.close path))
    else (false, files.spill path outcome.visible)

end Operations

/-- Several writes in a row. -/
def writeAll [DecidableEq Path] (path : Path) : List (List UInt8) → FileM ι Path Unit
  | [] => pure ()
  | text :: texts => do
      write path text
      writeAll path texts

/-! ## Runs without a power cut -/

/-- What follows a program that has returned. -/
theorem bind_of_some {m : FileM ι Path β} {f : β → FileM ι Path α} {env : FileEnv ι}
    {files files' : FileStore Path} {b : β} (h : m env files = (some b, files')) :
    (m >>= f) env files = f b env files' := by
  simp only [bind, h]

/-- The program returns, unless the power is lost. -/
def Returns (m : FileM ι Path α) : Prop :=
  ∀ env files, env.cut = none → (m env files).1.isSome

theorem Returns.pure (a : α) : Returns (Pure.pure a : FileM ι Path α) := fun _ _ _ => rfl

theorem Returns.bind {m : FileM ι Path β} {f : β → FileM ι Path α} (hm : Returns m)
    (hf : ∀ b, Returns (f b)) : Returns (m >>= f) := by
  intro env files hcut
  have hreturned := hm env files hcut
  simp only [Bind.bind]
  revert hreturned
  rcases m env files with ⟨_ | b, files'⟩
  · exact fun h => h
  · exact fun _ => hf b env files' hcut

theorem Returns.ite (b : Bool) {m n : FileM ι Path α} (hm : Returns m) (hn : Returns n) :
    Returns (if b then m else n) := by
  cases b with
  | true => exact hm
  | false => exact hn

theorem Returns.fileExists (path : Path) : Returns (FileM.fileExists path : FileM ι Path Bool) :=
  fun _ _ _ => rfl

theorem Returns.writeAll [DecidableEq Path] (path : Path) (texts : List (List UInt8)) :
    Returns (FileM.writeAll path texts : FileM ι Path Unit) := by
  induction texts with
  | nil => exact .pure ()
  | cons text texts ih => exact .bind (fun _ _ _ => rfl) fun _ => ih

theorem Returns.atSite [DecidableEq ι] (site : ι)
    (effect : FileOutcome → FileStore Path → α × FileStore Path) :
    Returns (FileM.atSite site effect) := by
  intro env files hcut
  rw [FileM.atSite, hcut, if_neg (by simp)]
  rfl

/-! ## Preconditions -/

/-- The run ends in `Q`, or in `C` when the power is lost. -/
def wp (env : FileEnv ι) (m : FileM ι Path α) (Q : α → FileStore Path → Prop)
    (C : FileStore Path → Prop) (files : FileStore Path) : Prop :=
  match m env files with
  | (some a, files) => Q a files
  | (none, files) => C files

variable {env : FileEnv ι} {Q : α → FileStore Path → Prop} {C : FileStore Path → Prop}
  {files : FileStore Path}

@[simp] theorem wp_pure (a : α) : wp env (pure a) Q C files ↔ Q a files := Iff.rfl

@[simp] theorem wp_bind (m : FileM ι Path β) (f : β → FileM ι Path α) :
    wp env (m >>= f) Q C files ↔ wp env m (fun b => wp env (f b) Q C) C files := by
  simp only [wp, bind]
  rcases m env files with ⟨_ | b, files'⟩ <;> rfl

theorem wp_ite (b : Bool) (m n : FileM ι Path α) :
    wp env (if b then m else n) Q C files ↔
      (b = true → wp env m Q C files) ∧ (b = false → wp env n Q C files) := by
  cases b <;> simp

theorem wp_mono {Q' : α → FileStore Path → Prop} {C' : FileStore Path → Prop}
    {m : FileM ι Path α} (h : wp env m Q C files) (hQ : ∀ a files, Q a files → Q' a files)
    (hC : ∀ files, C files → C' files) : wp env m Q' C' files := by
  unfold wp at *
  split
  · rename_i heq
    rw [heq] at h
    exact hQ _ _ h
  · rename_i heq
    rw [heq] at h
    exact hC _ h

@[simp] theorem wp_fileExists {path : Path} {Q : Bool → FileStore Path → Prop} :
    wp env (fileExists path) Q C files ↔ Q (files.durable path).isSome files := Iff.rfl

@[simp] theorem wp_write [DecidableEq Path] {path : Path} {text : List UInt8}
    {Q : Unit → FileStore Path → Prop} :
    wp env (write path text) Q C files ↔ Q () (files.apply (.write path text)) := Iff.rfl

/-- Writing changes nothing durable and collects the text in the stream. -/
theorem wp_writeAll [DecidableEq Path] {path : Path} {texts : List (List UInt8)}
    {Q : Unit → FileStore Path → Prop} :
    wp env (writeAll path texts) Q C files ↔
      Q () (files.applyAll (texts.map (FileStore.Op.write path))) := by
  induction texts generalizing files with
  | nil => rfl
  | cons text texts ih =>
      simp only [writeAll, wp_bind, wp_write, ih, List.map_cons, FileStore.applyAll_cons]

/-- What the precondition promises of a run that returns. -/
theorem wp_returns {m : FileM ι Path α} (h : wp env m Q C files) {a : α}
    {files' : FileStore Path} (hrun : m env files = (some a, files')) : Q a files' := by
  rw [wp, hrun] at h
  exact h

/-- And of one the power is lost in. -/
theorem wp_cuts {m : FileM ι Path α} (h : wp env m Q C files) {files' : FileStore Path}
    (hrun : m env files = (none, files')) : C files' := by
  rw [wp, hrun] at h
  exact h

variable [DecidableEq ι]

/-- An operation is cut, or has its effect. -/
theorem wp_atSite {site : ι} {effect : FileOutcome → FileStore Path → α × FileStore Path} :
    wp env (atSite site effect) Q C files ↔
      if env.cut = some site then C files.powerCut
      else Q (effect (env.outcome site) files).1 (effect (env.outcome site) files).2 := by
  unfold wp atSite
  split_ifs <;> rfl

/-- Where no power is lost, or the crash condition holds anyway, what is left
to prove is the effect. -/
theorem wp_atSite_of {site : ι} {effect : FileOutcome → FileStore Path → α × FileStore Path}
    (hcut : env.cut = some site → C files.powerCut)
    (heffect : Q (effect (env.outcome site) files).1 (effect (env.outcome site) files).2) :
    wp env (atSite site effect) Q C files := by
  rw [wp_atSite]
  split_ifs with h
  · exact hcut h
  · exact heffect

end FileM
