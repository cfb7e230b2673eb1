import Mathlib.Logic.Relation
import Mathlib.Order.Basic

/-!
# Labelled transition systems

A system is a set of initial states and a labelled step relation.  A path is
the list of its steps, each with the state before it, the label and the state
after it, so that a statement about a run can speak about every step taken and
every state reached.

Three rules carry the developments that use this file:

* `Reachable.invariant`: what holds initially and is kept by every step holds
  in every reachable state;
* `restrict`: the system whose steps also meet a guard, for statements about
  "every run whose steps all meet the condition";
* `Path.forall_iff`: where one step keeps a property exactly when it meets a
  guard, a whole run keeps it exactly when all of its steps meet the guard.
-/

universe u v w

/-- A labelled transition system over the states `σ` and the labels `α`. -/
structure TransitionSystem (σ : Type u) (α : Type v) where
  init : σ → Prop
  step : σ → α → σ → Prop

namespace TransitionSystem

variable {σ : Type u} {α : Type v} {τ : Type w} {β : Type v}

/-- The system of a total step function. -/
def ofFun (init : σ → Prop) (next : σ → α → σ) : TransitionSystem σ α where
  init := init
  step s a t := t = next s a

/-- The system of a step function that may be disabled. -/
def ofOption (init : σ → Prop) (next : σ → α → Option σ) : TransitionSystem σ α where
  init := init
  step s a t := next s a = some t

@[simp] theorem ofFun_step {init : σ → Prop} {next : σ → α → σ} {s t : σ} {a : α} :
    (ofFun init next).step s a t ↔ t = next s a := Iff.rfl

@[simp] theorem ofOption_step {init : σ → Prop} {next : σ → α → Option σ} {s t : σ} {a : α} :
    (ofOption init next).step s a t ↔ next s a = some t := Iff.rfl

/-! ## Reachable states -/

/-- The states reached from an initial state by finitely many steps. -/
inductive Reachable (T : TransitionSystem σ α) : σ → Prop where
  | init {s : σ} : T.init s → Reachable T s
  | step {s t : σ} {a : α} : Reachable T s → T.step s a t → Reachable T t

variable {T : TransitionSystem σ α}

/-- What holds initially and is kept by every step holds in every reachable state. -/
theorem Reachable.invariant {I : σ → Prop} (hinit : ∀ s, T.init s → I s)
    (hstep : ∀ s a t, I s → T.step s a t → I t) {s : σ} (h : Reachable T s) : I s := by
  induction h with
  | init hs => exact hinit _ hs
  | step _ ha ih => exact hstep _ _ _ ih ha

/-! ## Guarded steps -/

/-- The system whose steps also meet the guard `P`, a condition on the state
before the step and its label. -/
def restrict (T : TransitionSystem σ α) (P : σ → α → Prop) : TransitionSystem σ α where
  init := T.init
  step s a t := T.step s a t ∧ P s a

@[simp] theorem restrict_init {P : σ → α → Prop} {s : σ} :
    (T.restrict P).init s ↔ T.init s := Iff.rfl

@[simp] theorem restrict_step {P : σ → α → Prop} {s t : σ} {a : α} :
    (T.restrict P).step s a t ↔ T.step s a t ∧ P s a := Iff.rfl

theorem Reachable.of_restrict {P : σ → α → Prop} {s : σ} (h : Reachable (T.restrict P) s) :
    Reachable T s := by
  induction h with
  | init hs => exact .init hs
  | step _ ha ih => exact .step ih ha.1

/-! ## Paths -/

/-- A run from the first state to the last, as the list of its steps. -/
inductive Path (T : TransitionSystem σ α) : σ → List (σ × α × σ) → σ → Prop where
  | nil (s : σ) : Path T s [] s
  | cons {s t u : σ} {a : α} {steps : List (σ × α × σ)} :
      T.step s a t → Path T t steps u → Path T s ((s, a, t) :: steps) u

theorem Path.reachable {s u : σ} {steps : List (σ × α × σ)} (h : Path T s steps u)
    (hs : Reachable T s) : Reachable T u := by
  induction h with
  | nil => exact hs
  | cons ha _ ih => exact ih (.step hs ha)

/-- Every state along a path from a reachable state is reachable. -/
theorem Path.reachable_of_mem {s u : σ} {steps : List (σ × α × σ)} (h : Path T s steps u)
    (hs : Reachable T s) {x : σ × α × σ} (hx : x ∈ steps) :
    Reachable T x.1 ∧ T.step x.1 x.2.1 x.2.2 := by
  induction h with
  | nil => simp at hx
  | cons ha _ ih =>
      rcases List.mem_cons.mp hx with rfl | hx
      · exact ⟨hs, ha⟩
      · exact ih (.step hs ha) hx

/-- What every step keeps, a path keeps. -/
theorem Path.invariant {I : σ → Prop} (hstep : ∀ s a t, I s → T.step s a t → I t) {s u : σ}
    {steps : List (σ × α × σ)} (h : Path T s steps u) (hs : I s) : I u := by
  induction h with
  | nil => exact hs
  | cons ha _ ih => exact ih (hstep _ _ _ hs ha)

/-- A path whose steps all meet the guard is one of the guarded system. -/
theorem Path.restrict {P : σ → α → Prop} {s u : σ} {steps : List (σ × α × σ)}
    (h : Path T s steps u) (hall : ∀ x ∈ steps, P x.1 x.2.1) : Path (T.restrict P) s steps u := by
  induction h with
  | nil => exact .nil _
  | cons ha _ ih =>
      rw [List.forall_mem_cons] at hall
      exact .cons ⟨ha, hall.1⟩ (ih hall.2)

/-- What every step can only grow has grown along a path. -/
theorem Path.grows {γ : Type*} [Preorder γ] {f : σ → γ} (hgrows : ∀ s a t, T.step s a t → f s ≤ f t)
    {s u : σ} {steps : List (σ × α × σ)} (h : Path T s steps u) :
    f s ≤ f u ∧ ∀ x ∈ steps, f x.1 ≤ f u := by
  induction h with
  | nil => simp
  | cons ha _ ih =>
      have hle := (hgrows _ _ _ ha).trans ih.1
      exact ⟨hle, List.forall_mem_cons.mpr ⟨hle, ih.2⟩⟩

/-- Where a step from a state with `Q` keeps `Q` exactly when it meets `C`, a
run from such a state keeps `Q` exactly when all of its steps meet `C`. `I` is
an invariant of the system the step lemma may use. -/
theorem Path.forall_iff {I Q : σ → Prop} {C : σ → α → Prop}
    (hinv : ∀ s a t, I s → T.step s a t → I t)
    (hiff : ∀ s a t, I s → Q s → T.step s a t → (Q t ↔ C s a))
    {s u : σ} {steps : List (σ × α × σ)} (h : Path T s steps u) (hI : I s) (hQ : Q s) :
    (∀ x ∈ steps, Q x.2.2) ↔ ∀ x ∈ steps, C x.1 x.2.1 := by
  induction h with
  | nil => simp
  | @cons s t u a steps ha hrest ih =>
      have hone := hiff s a t hI hQ ha
      simp only [List.mem_cons, forall_eq_or_imp]
      constructor
      · rintro ⟨hqt, hall⟩
        exact ⟨hone.mp hqt, (ih (hinv s a t hI ha) hqt).mp hall⟩
      · rintro ⟨hc, hall⟩
        exact ⟨hone.mpr hc, (ih (hinv s a t hI ha) (hone.mpr hc)).mpr hall⟩

/-! ## Simulation -/

/-- `T` is simulated by `A` through `abs`: initial states map to initial
states, and every step of `T` maps to finitely many steps of `A`. -/
structure SimulatedBy (T : TransitionSystem σ α) (A : TransitionSystem τ β)
    (abs : σ → τ) : Prop where
  init : ∀ s, T.init s → A.init (abs s)
  step : ∀ s a t, Reachable T s → T.step s a t →
    ∃ steps, Path A (abs s) steps (abs t)

/-- The reachable states of a simulated system map to reachable states. -/
theorem SimulatedBy.reachable {A : TransitionSystem τ β} {abs : σ → τ}
    (sim : SimulatedBy T A abs) {s : σ} (h : Reachable T s) : Reachable A (abs s) := by
  induction h with
  | init hs => exact .init (sim.init _ hs)
  | step hs ha ih =>
      obtain ⟨steps, hpath⟩ := sim.step _ _ _ hs ha
      exact hpath.reachable ih

theorem Path.append {s t u : σ} {first second : List (σ × α × σ)} (h₁ : Path T s first t)
    (h₂ : Path T t second u) : Path T s (first ++ second) u := by
  induction h₁ with
  | nil => exact h₂
  | cons ha _ ih => exact .cons ha (ih h₂)

/-- The steps of a total step function along a list of labels. -/
def runSteps (next : σ → α → σ) : σ → List α → List (σ × α × σ)
  | _, [] => []
  | s, a :: labels => (s, a, next s a) :: runSteps next (next s a) labels

theorem path_runSteps (init : σ → Prop) (next : σ → α → σ) (labels : List α) :
    ∀ s, Path (ofFun init next) s (runSteps next s labels) (labels.foldl next s) := by
  induction labels with
  | nil => exact fun s => .nil s
  | cons a labels ih => exact fun s => .cons rfl (ih (next s a))

/-- The state after a list of labels, when every step is enabled. -/
def runOption (next : σ → α → Option σ) : σ → List α → Option σ
  | s, [] => some s
  | s, a :: labels => (next s a).bind fun t => runOption next t labels

theorem path_of_runOption (init : σ → Prop) {next : σ → α → Option σ} {labels : List α} :
    ∀ {s t : σ}, runOption next s labels = some t →
      ∃ steps, Path (ofOption init next) s steps t := by
  induction labels with
  | nil =>
      rintro s t h
      obtain rfl := Option.some.inj h
      exact ⟨[], .nil s⟩
  | cons a labels ih =>
      intro s t h
      simp only [runOption, Option.bind_eq_some_iff] at h
      obtain ⟨u, hu, h⟩ := h
      obtain ⟨steps, hpath⟩ := ih h
      exact ⟨_, .cons hu hpath⟩

/-- A test of the state after a list of labels finds a run that ends in such a state. -/
theorem path_of_runOption_any (init : σ → Prop) {next : σ → α → Option σ} {labels : List α} {s : σ}
    {p : σ → Bool} (h : (runOption next s labels).any p = true) :
    ∃ t steps, Path (ofOption init next) s steps t ∧ p t = true := by
  obtain ⟨t, ht, hp⟩ := (Option.any_eq_true _ _).mp h
  obtain ⟨steps, hpath⟩ := path_of_runOption init ht
  exact ⟨t, steps, hpath, hp⟩

/-- A run whose steps are also tested for a guard is a path of steps that meet it. -/
theorem path_of_runOption_guarded (init : σ → Prop) {next : σ → α → Option σ} {P : σ → α → Prop}
    [∀ s a, Decidable (P s a)] {labels : List α} :
    ∀ {s t : σ}, runOption (fun s a => if P s a then next s a else none) s labels = some t →
      ∃ steps, Path (ofOption init next) s steps t ∧ ∀ x ∈ steps, P x.1 x.2.1 := by
  induction labels with
  | nil =>
      rintro s t h
      obtain rfl := Option.some.inj h
      exact ⟨[], .nil s, by simp⟩
  | cons a labels ih =>
      intro s t h
      simp only [runOption, Option.bind_eq_some_iff] at h
      obtain ⟨u, hu, h⟩ := h
      obtain ⟨steps, hpath, hall⟩ := ih h
      by_cases hguard : P s a
      · rw [if_pos hguard] at hu
        exact ⟨_, .cons hu hpath, List.forall_mem_cons.mpr ⟨hguard, hall⟩⟩
      · rw [if_neg hguard] at hu
        exact nomatch hu

theorem Path.single {s t : σ} {a : α} (h : T.step s a t) : Path T s [(s, a, t)] t :=
  .cons h (.nil t)

end TransitionSystem
