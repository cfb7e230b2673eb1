import Mathlib.Data.List.Basic

/-!
# Incremental parsers with a state

A parser that looks at what is left of a stream and waits for more, takes some of it,
with what that gives and the state after it, or refuses the stream for good.  It keeps to
what it has decided: a step that does not wait is not changed by what comes later.

How the stream is cut does not matter to such a parser (`feedAll_eq_run`), and of a stream
it takes step by step every beginning gives what the steps give that end in it
(`run_of_prefix`).
-/

/-- What a parser makes of what is in front of it. -/
inductive ParseStep (σ β ε : Type*) where
  | more
  | bad (reason : ε)
  | took (length : ℕ) (next : σ) (out : List β)
  deriving DecidableEq, Repr

/-- A parser that keeps to what it has decided. -/
structure Incremental (α σ β ε : Type*) where
  step : σ → List α → ParseStep σ β ε
  step_nil : ∀ s, step s [] = .more
  took_length : ∀ {s xs n t out}, step s xs = .took n t out → 0 < n ∧ n ≤ xs.length
  step_append : ∀ {s xs} (ys : List α), step s xs ≠ .more → step s (xs ++ ys) = step s xs

/-- Where a parser stands, and what it gave. -/
structure Progress (α σ β ε : Type*) where
  state : σ
  rest : List α
  out : List β
  refused : Option ε
  deriving DecidableEq, Repr

namespace Incremental

variable {α σ β ε : Type*} (M : Incremental α σ β ε)

/-- The steps on a stream, bounded by their number. -/
def runFor : ℕ → σ → List α → Progress α σ β ε
  | 0, s, xs => ⟨s, xs, [], none⟩
  | fuel + 1, s, xs =>
      match M.step s xs with
      | .more => ⟨s, xs, [], none⟩
      | .bad reason => ⟨s, xs, [], some reason⟩
      | .took n t out =>
          let rest := runFor fuel t (xs.drop n)
          { rest with out := out ++ rest.out }

/-- All steps: each of them but the last takes something. -/
def run (s : σ) (xs : List α) : Progress α σ β ε := M.runFor (xs.length + 1) s xs

variable {M} {s t : σ} {xs : List α} {n : ℕ} {out : List β} {reason : ε}

/-- Any bound above the length gives the same steps. -/
theorem runFor_fuel {n m : ℕ} : ∀ {s : σ} {xs : List α}, xs.length < n → xs.length < m →
    M.runFor n s xs = M.runFor m s xs := by
  induction n generalizing m with
  | zero => exact fun hn => absurd hn (Nat.not_lt_zero _)
  | succ n ih =>
      intro s xs hn hm
      obtain ⟨m, rfl⟩ : ∃ k, m = k + 1 := ⟨m - 1, by omega⟩
      rw [runFor, runFor]
      cases hstep : M.step s xs with
      | more => rfl
      | bad reason => rfl
      | took length t out =>
          obtain ⟨hpos, hle⟩ := M.took_length hstep
          dsimp only
          rw [ih (m := m)]
          · rw [List.length_drop]
            omega
          · rw [List.length_drop]
            omega

theorem run_of_more (h : M.step s xs = .more) : M.run s xs = ⟨s, xs, [], none⟩ := by
  rw [run, runFor, h]

theorem run_of_bad (h : M.step s xs = .bad reason) :
    M.run s xs = ⟨s, xs, [], some reason⟩ := by
  rw [run, runFor, h]

theorem run_of_took (h : M.step s xs = .took n t out) :
    M.run s xs = { M.run t (xs.drop n) with out := out ++ (M.run t (xs.drop n)).out } := by
  obtain ⟨hpos, hle⟩ := M.took_length h
  have hfuel : M.runFor xs.length t (xs.drop n) = M.run t (xs.drop n) := by
    refine runFor_fuel ?_ (Nat.lt_succ_self _)
    rw [List.length_drop]
    omega
  rw [run, runFor, h]
  dsimp only
  rw [hfuel]

/-- Induction along the steps of a run. -/
theorem run_induction {motive : σ → List α → Prop}
    (more : ∀ s xs, M.step s xs = .more → motive s xs)
    (bad : ∀ s xs reason, M.step s xs = .bad reason → motive s xs)
    (took : ∀ s xs n t out, M.step s xs = .took n t out → motive t (xs.drop n) → motive s xs)
    (s : σ) (xs : List α) : motive s xs := by
  induction hlength : xs.length using Nat.strongRecOn generalizing s xs with
  | _ n ih =>
      cases hstep : M.step s xs with
      | more => exact more s xs hstep
      | bad reason => exact bad s xs reason hstep
      | took k t out =>
          obtain ⟨hpos, hle⟩ := M.took_length hstep
          refine took s xs k t out hstep (ih _ ?_ t _ rfl)
          rw [List.length_drop]
          omega

/-- A run that was not refused stands where it waits. -/
theorem step_run (s : σ) (xs : List α) :
    (M.run s xs).refused = none → M.step (M.run s xs).state (M.run s xs).rest = .more := by
  induction s, xs using run_induction (M := M) with
  | more s xs h =>
      rw [run_of_more h]
      exact fun _ => h
  | bad s xs reason h =>
      rw [run_of_bad h]
      nofun
  | took s xs n t out h ih =>
      rw [run_of_took h]
      exact ih

/-- **What comes later does not change what was given**: the run goes on where it stood. -/
theorem run_append (s : σ) (xs ys : List α) :
    (M.run s (xs ++ ys)).refused =
        ((M.run s xs).refused.or (M.run (M.run s xs).state ((M.run s xs).rest ++ ys)).refused) ∧
      (M.run s (xs ++ ys)).out =
        (M.run s xs).out ++
          if (M.run s xs).refused.isSome then []
          else (M.run (M.run s xs).state ((M.run s xs).rest ++ ys)).out := by
  induction s, xs using run_induction (M := M) with
  | more s xs h =>
      rw [run_of_more h]
      exact ⟨rfl, rfl⟩
  | bad s xs reason h =>
      have hlater : M.step s (xs ++ ys) = .bad reason := by
        rw [M.step_append ys (by rw [h]; nofun), h]
      rw [run_of_bad h, run_of_bad hlater]
      exact ⟨rfl, rfl⟩
  | took s xs n t out h ih =>
      have hlater : M.step s (xs ++ ys) = .took n t out := by
        rw [M.step_append ys (by rw [h]; nofun), h]
      have hdrop : (xs ++ ys).drop n = xs.drop n ++ ys :=
        List.drop_append_of_le_length (M.took_length h).2
      rw [run_of_took h, run_of_took hlater, hdrop]
      refine ⟨ih.1, ?_⟩
      dsimp only
      rw [ih.2, List.append_assoc]

/-! ## Streams in pieces -/

section Feed

variable (M)

/-- One piece of a stream, after what was left of the pieces before it. -/
def feed (p : Progress α σ β ε) (chunk : List α) : Progress α σ β ε :=
  if p.refused.isSome then p
  else
    let next := M.run p.state (p.rest ++ chunk)
    { next with out := p.out ++ next.out }

def feedAll (p : Progress α σ β ε) (chunks : List (List α)) : Progress α σ β ε :=
  chunks.foldl M.feed p

variable {M}

theorem feedAll_of_refused {p : Progress α σ β ε} (h : p.refused.isSome = true)
    (chunks : List (List α)) : M.feedAll p chunks = p := by
  induction chunks with
  | nil => rfl
  | cons chunk chunks ih =>
      rw [feedAll, List.foldl_cons, feed, if_pos h]
      exact ih

/-- **How a stream is cut does not matter.** -/
theorem feedAll_eq_run {p : Progress α σ β ε} (hrefused : p.refused = none)
    (hwaits : M.step p.state p.rest = .more) (chunks : List (List α)) :
    (M.feedAll p chunks).refused = (M.run p.state (p.rest ++ chunks.flatten)).refused ∧
      (M.feedAll p chunks).out = p.out ++ (M.run p.state (p.rest ++ chunks.flatten)).out := by
  induction chunks generalizing p with
  | nil =>
      rw [List.flatten_nil, List.append_nil, run_of_more hwaits, List.append_nil]
      exact ⟨hrefused, rfl⟩
  | cons chunk chunks ih =>
      obtain ⟨happend, hout⟩ := run_append (M := M) p.state (p.rest ++ chunk) chunks.flatten
      have hmore := step_run (M := M) p.state (p.rest ++ chunk)
      rw [feedAll, List.foldl_cons, ← feedAll, feed, if_neg (by simp [hrefused]),
        List.flatten_cons, ← List.append_assoc, happend, hout]
      generalize M.run p.state (p.rest ++ chunk) = next at hmore ⊢
      obtain ⟨state, rest, out, refused⟩ := next
      cases refused with
      | none =>
          obtain ⟨hnext, hlater⟩ := ih (p := ⟨state, rest, p.out ++ out, none⟩) rfl (hmore rfl)
          refine ⟨hnext, hlater.trans ?_⟩
          simp
      | some reason =>
          rw [feedAll_of_refused rfl]
          simp

end Feed

/-! ## Streams that are taken step by step -/

/-- Pieces that are taken one by one, each with what it gives. -/
inductive Accepts (M : Incremental α σ β ε) : σ → List (List α × List β) → σ → Prop
  | nil (s : σ) : Accepts M s [] s
  | cons {s t u : σ} {xs : List α} {out : List β} {pieces : List (List α × List β)} :
      M.step s xs = .took xs.length t out → Accepts M t pieces u →
      Accepts M s ((xs, out) :: pieces) u

theorem Accepts.append {u : σ} {first second : List (List α × List β)}
    (h₁ : M.Accepts s first t) (h₂ : M.Accepts t second u) : M.Accepts s (first ++ second) u := by
  induction h₁ with
  | nil => exact h₂
  | cons hstep _ ih => exact .cons hstep (ih h₂)

/-- What the pieces give that end within the first `n` elements. -/
def givenBy : ℕ → List (List α × List β) → List β
  | _, [] => []
  | n, (xs, out) :: pieces =>
      if xs.length ≤ n then out ++ givenBy (n - xs.length) pieces else []

theorem givenBy_of_le {pieces : List (List α × List β)} {n : ℕ}
    (h : (pieces.flatMap Prod.fst).length ≤ n) : givenBy n pieces = pieces.flatMap Prod.snd := by
  induction pieces generalizing n with
  | nil => rfl
  | cons piece pieces ih =>
      obtain ⟨xs, out⟩ := piece
      rw [List.flatMap_cons, List.length_append] at h
      dsimp only at h
      rw [givenBy, if_pos (by omega), ih (by omega), List.flatMap_cons]

/-- A piece in front of a stream. -/
theorem run_piece (h : M.step s xs = .took xs.length t out) (ys : List α) :
    M.run s (xs ++ ys) = { M.run t ys with out := out ++ (M.run t ys).out } := by
  have hlater : M.step s (xs ++ ys) = .took xs.length t out := by
    rw [M.step_append ys (by rw [h]; nofun), h]
  rw [run_of_took hlater, List.drop_left]

/-- **Every beginning of the stream gives what the pieces give that end in it**, and is not
refused. -/
theorem run_of_prefix {pieces : List (List α × List β)} (h : M.Accepts s pieces t) :
    ∀ {xs : List α}, xs <+: pieces.flatMap Prod.fst →
      (M.run s xs).refused = none ∧ (M.run s xs).out = givenBy xs.length pieces := by
  induction h with
  | nil s =>
      intro xs hxs
      obtain rfl := List.prefix_nil.mp hxs
      rw [run_of_more (M.step_nil s)]
      exact ⟨rfl, rfl⟩
  | @cons s t u piece out pieces hstep _ ih =>
      intro xs hxs
      rw [List.flatMap_cons] at hxs
      by_cases hle : piece.length ≤ xs.length
      · obtain ⟨more, rfl⟩ := List.prefix_of_prefix_length_le
          (List.prefix_append piece _) hxs hle
        obtain ⟨hrefused, hout⟩ := ih ((List.prefix_append_right_inj piece).mp hxs)
        rw [run_piece hstep, givenBy, if_pos hle, List.length_append, Nat.add_sub_cancel_left]
        exact ⟨hrefused, congrArg (out ++ ·) hout⟩
      · -- the piece has only begun: a decision now would be the one of the whole piece
        have hbegun : xs <+: piece :=
          List.prefix_of_prefix_length_le hxs (List.prefix_append piece _) (by omega)
        obtain ⟨more, rfl⟩ := hbegun
        have hmore : M.step s xs = .more := by
          by_contra hne
          rw [M.step_append more hne] at hstep
          exact hle (by have := (M.took_length hstep).2; simpa using this)
        rw [run_of_more hmore, givenBy, if_neg hle]
        exact ⟨rfl, rfl⟩

end Incremental
