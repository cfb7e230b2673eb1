import Mathlib.Data.List.Basic
import Mathlib.Data.List.Infix
import Mathlib.Order.Basic

/-!
# Histories, streaks and latches

A history is a list of events, newest first, so that what was known at an earlier
moment is a suffix of it.  A property of moments is a predicate on histories.

* `streak`: the counter that goes up while a property holds and back to zero when
  it does not, and `le_streak_iff`, what it counts;
* `repeats`: the counter of entries that repeat the one before them;
* `latch`: a flag that one property raises and another one lowers, and
  `latch_iff`, how long it stays up;
* `Since`: what has held of every event since a certain one, as an inductive
  predicate that follows the history;
* `Steady`: the events are in the order of a clock.
-/

namespace History

variable {α : Type*}

/-! ## Streaks -/

/-- The last `n` events each found `p` to hold. -/
def Lasted (p : List α → Prop) (n : ℕ) (history : List α) : Prop :=
  n ≤ history.length ∧ ∀ i < n, p (history.drop i)

/-- How many events in a row have found `p` to hold. -/
def streak (p : List α → Prop) [DecidablePred p] : List α → ℕ
  | [] => 0
  | event :: older => if p (event :: older) then streak p older + 1 else 0

section Streak

variable {p : List α → Prop} {n : ℕ} {event : α} {older : List α}

theorem lasted_zero (history : List α) : Lasted p 0 history :=
  ⟨Nat.zero_le _, fun _ h => absurd h (Nat.not_lt_zero _)⟩

theorem lasted_succ_cons :
    Lasted p (n + 1) (event :: older) ↔ p (event :: older) ∧ Lasted p n older := by
  constructor
  · rintro ⟨hlength, hall⟩
    refine ⟨hall 0 (Nat.succ_pos n), Nat.le_of_succ_le_succ hlength, fun i hi => ?_⟩
    exact hall (i + 1) (Nat.succ_lt_succ hi)
  · rintro ⟨hnow, hlength, hall⟩
    refine ⟨Nat.succ_le_succ hlength, fun i hi => ?_⟩
    cases i with
    | zero => exact hnow
    | succ i => exact hall i (Nat.lt_of_succ_lt_succ hi)

theorem Lasted.mono {m : ℕ} {history : List α} (h : Lasted p n history) (hm : m ≤ n) :
    Lasted p m history :=
  ⟨hm.trans h.1, fun i hi => h.2 i (hi.trans_le hm)⟩

variable [DecidablePred p]

instance : DecidablePred (Lasted p n) :=
  fun history => inferInstanceAs (Decidable (n ≤ history.length ∧ ∀ i < n, p (history.drop i)))

theorem streak_cons :
    streak p (event :: older) = if p (event :: older) then streak p older + 1 else 0 := rfl

/-- The counter has reached `n` exactly when `p` has lasted for `n` events. -/
theorem le_streak_iff {history : List α} : n ≤ streak p history ↔ Lasted p n history := by
  induction history generalizing n with
  | nil =>
      constructor
      · intro h
        obtain rfl : n = 0 := Nat.le_zero.mp h
        exact lasted_zero []
      · exact fun h => h.1
  | cons event older ih =>
      cases n with
      | zero => exact ⟨fun _ => lasted_zero _, fun _ => Nat.zero_le _⟩
      | succ n =>
          rw [lasted_succ_cons, ← ih, streak_cons]
          by_cases hnow : p (event :: older)
          · simp [hnow]
          · simp [hnow]

end Streak

/-! ## Repetitions -/

/-- The newest entry repeats the `n` before it. -/
def Repeated (r : α → α → Prop) (n : ℕ) (entries : List α) : Prop :=
  n < entries.length ∧ (entries.take (n + 1)).IsChain r

instance {r : α → α → Prop} [DecidableRel r] {n : ℕ} : DecidablePred (Repeated r n) :=
  fun entries => inferInstanceAs (Decidable (n < entries.length ∧ (entries.take (n + 1)).IsChain r))

/-- How many entries in a row repeat the one before them. -/
def repeats (r : α → α → Prop) [DecidableRel r] : List α → ℕ
  | [] | [_] => 0
  | newest :: previous :: older =>
      if r newest previous then repeats r (previous :: older) + 1 else 0

section Repeats

variable {r : α → α → Prop} {n : ℕ}

theorem repeated_succ_cons {newest previous : α} {older : List α} :
    Repeated r (n + 1) (newest :: previous :: older) ↔
      r newest previous ∧ Repeated r n (previous :: older) := by
  unfold Repeated
  rw [List.take_succ_cons, List.take_succ_cons, List.isChain_cons_cons]
  simp only [List.length_cons, Nat.succ_lt_succ_iff]
  tauto

/-- The counter of an entry that is new. -/
theorem repeats_cons [DecidableRel r] {newest : α} {older : List α} :
    repeats r (newest :: older) =
      if ∃ previous, older.head? = some previous ∧ r newest previous then repeats r older + 1
      else 0 := by
  cases older with
  | nil => simp [repeats]
  | cons previous older => simp [repeats]

/-- The counter has reached `n` exactly when the newest entry repeats the `n` before it. -/
theorem le_repeats_iff [DecidableRel r] {entries : List α} (hn : 0 < n) :
    n ≤ repeats r entries ↔ Repeated r n entries := by
  obtain ⟨n, rfl⟩ := Nat.exists_eq_succ_of_ne_zero hn.ne'
  induction entries generalizing n with
  | nil => simp [repeats, Repeated]
  | cons newest older ih =>
      cases older with
      | nil => simp [repeats, Repeated]
      | cons previous older =>
          rw [repeated_succ_cons]
          by_cases hsame : r newest previous
          · cases n with
            | zero => simp [repeats, hsame, Repeated]
            | succ n => simp [repeats, hsame, ih n (Nat.succ_pos n)]
          · simp [repeats, hsame]

end Repeats

/-! ## Latches -/

/-- A flag that `raise` raises and `lower` lowers; `raise` comes first. -/
def latch (raise lower : List α → Prop) [DecidablePred raise] [DecidablePred lower] :
    List α → Bool
  | [] => false
  | event :: older =>
      if raise (event :: older) then true
      else if lower (event :: older) then false
      else latch raise lower older

section Latch

variable {raise lower : List α → Prop} [DecidablePred raise] [DecidablePred lower]

/-- The flag is up exactly when it was raised and has not been lowered since. -/
theorem latch_iff (hnil : ¬ raise []) {history : List α} :
    latch raise lower history = true ↔
      ∃ since, since <:+ history ∧ raise since ∧
        ∀ later, later <:+ history → since.length < later.length → ¬ lower later := by
  induction history with
  | nil =>
      constructor
      · exact fun h => nomatch h
      · rintro ⟨since, hsince, hraise, -⟩
        obtain rfl := List.suffix_nil.mp hsince
        exact absurd hraise hnil
  | cons event older ih =>
      unfold latch
      by_cases hraise : raise (event :: older)
      · rw [if_pos hraise]
        refine ⟨fun _ => ⟨_, List.suffix_refl _, hraise, fun later hlater hlt => ?_⟩, fun _ => rfl⟩
        exact absurd hlater.length_le (not_le.mpr hlt)
      rw [if_neg hraise]
      by_cases hlower : lower (event :: older)
      · rw [if_pos hlower]
        refine ⟨fun h => (nomatch h), ?_⟩
        rintro ⟨since, hsince, hup, hkept⟩
        rcases List.suffix_cons_iff.mp hsince with rfl | hsince
        · exact absurd hup hraise
        · exact absurd hlower (hkept _ (List.suffix_refl _)
            (Nat.lt_succ_of_le hsince.length_le))
      rw [if_neg hlower, ih]
      constructor
      · rintro ⟨since, hsince, hup, hkept⟩
        refine ⟨since, hsince.trans (List.suffix_cons _ _), hup, fun later hlater hlt => ?_⟩
        rcases List.suffix_cons_iff.mp hlater with rfl | hlater
        · exact hlower
        · exact hkept later hlater hlt
      · rintro ⟨since, hsince, hup, hkept⟩
        rcases List.suffix_cons_iff.mp hsince with rfl | hsince
        · exact absurd hup hraise
        · exact ⟨since, hsince, hup, fun later hlater hlt =>
            hkept later (hlater.trans (List.suffix_cons _ _)) hlt⟩

end Latch

/-! ## Since -/

/-- There was an event with `begun`, and every event since has had `kept`. -/
inductive Since (begun kept : α → Prop) : List α → Prop
  | start {event : α} {older : List α} (h : begun event) : Since begun kept (event :: older)
  | later {event : α} {older : List α} (h : kept event) (since : Since begun kept older) :
      Since begun kept (event :: older)

theorem since_iff {begun kept : α → Prop} {history : List α} :
    Since begun kept history ↔ ∃ newer event older, history = newer ++ event :: older ∧
      begun event ∧ ∀ x ∈ newer, kept x := by
  constructor
  · intro h
    induction h with
    | start h => exact ⟨[], _, _, rfl, h, by simp⟩
    | later h _ ih =>
        obtain ⟨newer, event, older, rfl, hbegun, hkept⟩ := ih
        exact ⟨_ :: newer, event, older, rfl, hbegun, List.forall_mem_cons.mpr ⟨h, hkept⟩⟩
  · rintro ⟨newer, event, older, rfl, hbegun, hkept⟩
    induction newer with
    | nil => exact .start hbegun
    | cons x newer ih =>
        obtain ⟨hx, hnewer⟩ := List.forall_mem_cons.mp hkept
        exact .later hx (ih hnewer)

/-! ## Clocks -/

section Clock

variable {T : Type*} [LE T] {starts ends : α → T}

/-- The clock does not run backwards: within an event, and from one to the next. -/
def Steady (starts ends : α → T) (history : List α) : Prop :=
  (∀ event ∈ history, starts event ≤ ends event) ∧
    history.Pairwise fun later earlier => ends earlier ≤ starts later

instance [DecidableLE T] (history : List α) : Decidable (Steady starts ends history) :=
  inferInstanceAs (Decidable ((∀ event ∈ history, starts event ≤ ends event) ∧
    history.Pairwise fun later earlier => ends earlier ≤ starts later))

theorem steady_nil : Steady starts ends [] := ⟨by simp, .nil⟩

theorem Steady.tail {event : α} {older : List α} (h : Steady starts ends (event :: older)) :
    Steady starts ends older :=
  ⟨fun x hx => h.1 x (List.mem_cons_of_mem event hx), (List.pairwise_cons.mp h.2).2⟩

/-- Nothing ended after the newest event started. -/
theorem Steady.ends_le {event x : α} {older : List α} (h : Steady starts ends (event :: older))
    (hx : x ∈ older) : ends x ≤ starts event :=
  (List.pairwise_cons.mp h.2).1 x hx

end Clock

theorem Steady.starts_le {T : Type*} [Preorder T] {starts ends : α → T} {event x : α}
    {older : List α} (h : Steady starts ends (event :: older)) (hx : x ∈ older) :
    starts x ≤ starts event :=
  (h.1 x (List.mem_cons_of_mem event hx)).trans (h.ends_le hx)

end History
