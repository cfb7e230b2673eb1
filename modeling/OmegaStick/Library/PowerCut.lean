import Mathlib.Data.List.Basic
import Mathlib.Logic.Function.Basic

/-!
# Files under a power cut

A filesystem of named files with write streams.  Opening a file for writing
with truncation empties it at once; what is written stays in the stream until
the stream is flushed or closed.  A power cut keeps what is durable and loses
the streams.

`replaceInPlace` is the usual way to overwrite a file: open, write, flush,
close.  `durable_take_replaceInPlace` says what each cut point leaves of it:
the old content before the open, the new content from the flush on, and an
empty file in between.
-/

universe u

/-- The durable content of every file, and the unflushed text of every open
write stream. -/
structure FileStore (Path : Type u) where
  durable : Path → Option (List UInt8)
  stream : Path → Option (List UInt8)

namespace FileStore

variable {Path : Type u} [DecidableEq Path]

/-- The operations a program makes on its files when it writes them. -/
inductive Op (Path : Type u) where
  | openTruncate (path : Path)
  | write (path : Path) (text : List UInt8)
  | flush (path : Path)
  | close (path : Path)
  deriving DecidableEq

/-- One completed operation. -/
def apply (files : FileStore Path) : Op Path → FileStore Path
  | .openTruncate path =>
      ⟨Function.update files.durable path (some []),
        Function.update files.stream path (some [])⟩
  | .write path text =>
      { files with
        stream := Function.update files.stream path ((files.stream path).map (· ++ text)) }
  | .flush path =>
      { files with
        durable := Function.update files.durable path
          ((files.stream path).or (files.durable path)) }
  | .close path =>
      ⟨Function.update files.durable path ((files.stream path).or (files.durable path)),
        Function.update files.stream path none⟩

/-- A sequence of completed operations. -/
def applyAll (files : FileStore Path) (ops : List (Op Path)) : FileStore Path :=
  ops.foldl apply files

/-- What a power cut leaves: the durable contents, and no open stream. -/
def powerCut (files : FileStore Path) : FileStore Path := ⟨files.durable, fun _ => none⟩

omit [DecidableEq Path] in
@[simp] theorem powerCut_durable (files : FileStore Path) :
    files.powerCut.durable = files.durable := rfl

@[simp] theorem applyAll_nil (files : FileStore Path) : files.applyAll [] = files := rfl

@[simp] theorem applyAll_cons (files : FileStore Path) (op : Op Path) (ops : List (Op Path)) :
    files.applyAll (op :: ops) = (files.apply op).applyAll ops := rfl

theorem applyAll_append (files : FileStore Path) (first second : List (Op Path)) :
    files.applyAll (first ++ second) = (files.applyAll first).applyAll second :=
  List.foldl_append

/-- The file an operation is about. -/
def Op.path : Op Path → Path
  | .openTruncate path => path
  | .write path _ => path
  | .flush path => path
  | .close path => path

/-- An operation leaves the other files alone. -/
theorem apply_durable_of_ne {files : FileStore Path} {op : Op Path} {path : Path}
    (h : path ≠ op.path) : (files.apply op).durable path = files.durable path := by
  cases op <;> simp_all [apply, Op.path]

theorem applyAll_durable_of_ne {files : FileStore Path} {ops : List (Op Path)} {path : Path}
    (h : ∀ op ∈ ops, path ≠ op.path) : (files.applyAll ops).durable path = files.durable path := by
  induction ops generalizing files with
  | nil => rfl
  | cons op rest ih =>
      rw [applyAll_cons, ih fun op hop => h op (List.mem_cons_of_mem _ hop)]
      exact apply_durable_of_ne (h op (List.mem_cons_self ..))

/-! ## Overwriting a file -/

/-- Open with truncation, write the pieces, flush, close. -/
def replaceInPlace (path : Path) (pieces : List (List UInt8)) : List (Op Path) :=
  .openTruncate path :: (pieces.map (Op.write path) ++ [.flush path, .close path])

omit [DecidableEq Path] in
theorem path_of_mem_replaceInPlace {path : Path} {pieces : List (List UInt8)} {op : Op Path}
    (h : op ∈ replaceInPlace path pieces) : op.path = path := by
  simp only [replaceInPlace, List.mem_cons, List.mem_append, List.mem_map] at h
  rcases h with rfl | ⟨_, _, rfl⟩ | rfl | rfl | h
  · rfl
  · rfl
  · rfl
  · rfl
  · simp at h

/-- Writing to an open stream changes nothing durable and collects the text. -/
theorem applyAll_writes (path : Path) (pieces : List (List UInt8)) (files : FileStore Path)
    (buffered : List UInt8) (h : files.stream path = some buffered) :
    (files.applyAll (pieces.map (Op.write path))).durable = files.durable ∧
      (files.applyAll (pieces.map (Op.write path))).stream path =
        some (buffered ++ pieces.flatten) := by
  induction pieces generalizing files buffered with
  | nil => simp [h]
  | cons piece rest ih =>
      have hstream : (files.apply (.write path piece)).stream path = some (buffered ++ piece) := by
        simp [apply, h]
      obtain ⟨hdurable, hcollected⟩ := ih _ _ hstream
      simp only [List.map_cons, applyAll_cons, List.flatten_cons]
      exact ⟨hdurable, by rw [hcollected, List.append_assoc]⟩

/-- What `k` completed operations of an overwrite leave of the file itself. -/
theorem durable_take_replaceInPlace (files : FileStore Path) (path : Path)
    (pieces : List (List UInt8)) (k : ℕ) :
    (files.applyAll ((replaceInPlace path pieces).take k)).durable path =
      if k = 0 then files.durable path
      else if k ≤ pieces.length + 1 then some []
      else some pieces.flatten := by
  obtain _ | k := k
  · simp
  have hopen : (files.apply (.openTruncate path)).stream path = some [] := by simp [apply]
  simp only [replaceInPlace, List.take_succ_cons, applyAll_cons, Nat.add_eq_zero_iff,
    Nat.one_ne_zero, and_false, if_false, Nat.add_le_add_iff_right]
  split
  · rename_i hk
    -- only writes so far: the file is as the truncation left it
    rw [List.take_append_of_le_length (by simpa using hk), ← List.map_take,
      (applyAll_writes path _ _ _ hopen).1]
    simp [apply]
  · rename_i hk
    rw [List.take_append, List.take_of_length_le (by simp; omega), applyAll_append]
    obtain ⟨-, hstream⟩ := applyAll_writes path pieces _ _ hopen
    rw [List.nil_append] at hstream
    generalize (files.apply (.openTruncate path)).applyAll _ = written at hstream ⊢
    have hlen : k - (pieces.map (Op.write path)).length = 1 ∨
        2 ≤ k - (pieces.map (Op.write path)).length := by
      simp only [List.length_map]
      omega
    rcases hlen with hone | htwo
    · rw [hone]
      simp [apply, hstream]
    · rw [List.take_of_length_le (by simpa using htwo)]
      simp [apply, hstream]

omit [DecidableEq Path] in
theorem openTruncate_mem_take_replaceInPlace {path : Path} {pieces : List (List UInt8)} {k : ℕ} :
    Op.openTruncate path ∈ (replaceInPlace path pieces).take k ↔ 0 < k := by
  cases k <;> simp [replaceInPlace]

omit [DecidableEq Path] in
theorem flush_mem_take_replaceInPlace {path : Path} {pieces : List (List UInt8)} {k : ℕ} :
    Op.flush path ∈ (replaceInPlace path pieces).take k ↔ pieces.length + 2 ≤ k := by
  obtain _ | k := k
  · simp
  have hwrites : ∀ ps : List (List UInt8), Op.flush path ∉ ps.map (Op.write path) := by simp
  simp only [replaceInPlace, List.take_succ_cons, List.mem_cons, reduceCtorEq, false_or,
    List.take_append, List.mem_append, ← List.map_take, hwrites, List.length_map]
  rcases hm : k - pieces.length with _ | m
  · simp only [List.take_zero, List.not_mem_nil, false_iff]
    omega
  · simp only [List.take_succ_cons, List.mem_cons, true_or, true_iff]
    omega

end FileStore
