import OmegaStick.Library.MachineFloat
import Mathlib.Tactic.Linarith
import Mathlib.Algebra.Order.Field.Rat

/-!
# The order of machine floats

What IEEE 754 guarantees of the comparisons, and of the arithmetic as far as
the order sees it: the comparisons order the numbers and leave NaN out, the sign
of a difference is exact, and rounding is monotone.  Rounding itself, overflow
and the two zeros stay open, so the laws hold of binary32 and of `ℚ` alike.
-/

universe u

namespace MachineFloat

/-- A value that is not NaN. -/
def Number {F : Type u} [MachineFloat F] (x : F) : Prop := feq x x = true

end MachineFloat

open MachineFloat

/-- The order laws of a machine float. -/
class FloatOrder (F : Type u) [MachineFloat F] : Prop where
  flt_irrefl (x : F) : ¬ flt x x = true
  flt_trans {x y z : F} : flt x y = true → flt y z = true → flt x z = true
  /-- A comparison with NaN is false. -/
  numbers_of_flt {x y : F} : flt x y = true → Number x ∧ Number y
  /-- Numbers are comparable. -/
  flt_or_flt {x y z : F} : flt x z = true → Number y → flt x y = true ∨ flt y z = true
  fle_iff {x y : F} : fle x y = true ↔ Number x ∧ Number y ∧ ¬ flt y x = true
  /-- The sign of a difference is exact: it underflows gradually. -/
  sub_flt_zero {x y : F} : flt (x - y) (ofRat 0) = true ↔ flt x y = true
  zero_flt_sub {x y : F} : flt (ofRat 0) (x - y) = true ↔ flt y x = true
  /-- Rounding is monotone. -/
  flt_of_sub_flt_sub {x y z : F} : flt (x - z) (y - z) = true → flt x y = true
  add_flt_of_not_flt {x y z : F} :
    flt (z + x) z = true → ¬ flt x y = true → Number y → flt (z + y) z = true
  flt_add_of_not_flt {x y z : F} :
    flt z (z + x) = true → ¬ flt y x = true → Number y → flt z (z + y) = true
  fabs_of_pos {x : F} : flt (ofRat 0) x = true → fabs x = x
  fabs_of_neg {x : F} : flt x (ofRat 0) = true → fabs x = -x
  number_neg {x : F} : Number x → Number (-x)
  neg_flt_neg {x y : F} : flt (-x) (-y) = true ↔ flt y x = true
  neg_flt_zero {x : F} : flt (-x) (ofRat 0) = true ↔ flt (ofRat 0) x = true
  zero_flt_neg {x : F} : flt (ofRat 0) (-x) = true ↔ flt x (ofRat 0) = true
  /-- A literal that does not underflow is positive, and conversion is monotone. -/
  zero_flt_ofRat {q : ℚ} : (1 / 2) ^ 126 ≤ q → flt (ofRat 0 : F) (ofRat q) = true
  fle_ofRat {p q : ℚ} : p ≤ q → fle (ofRat p : F) (ofRat q) = true
  isFinite_zero : isFinite (ofRat 0 : F) = true

/-- A difference from NaN is NaN. -/
class FloatNaN (F : Type u) [MachineFloat F] : Prop where
  number_of_sub {x y : F} : Number (x - y) → Number x

instance : FloatNaN ℚ where
  number_of_sub _ := decide_eq_true rfl

instance : FloatOrder ℚ where
  flt_irrefl x := by simp [flt]
  flt_trans {x y z} := by simpa [flt] using fun hxy hyz => lt_trans hxy hyz
  numbers_of_flt _ := ⟨decide_eq_true rfl, decide_eq_true rfl⟩
  flt_or_flt {x y z} h _ := by
    simp only [flt, decide_eq_true_eq] at h ⊢
    exact lt_or_ge x y |>.imp id fun hyx => lt_of_le_of_lt hyx h
  fle_iff {x y} := by simp [fle, flt, Number, feq]
  sub_flt_zero {x y} := by simp [flt, ofRat]
  zero_flt_sub {x y} := by simp [flt, ofRat]
  flt_of_sub_flt_sub {x y z} := by simp [flt]
  add_flt_of_not_flt {x y z} hx hy _ := by
    simp only [flt, decide_eq_true_eq] at *
    linarith
  flt_add_of_not_flt {x y z} hx hy _ := by
    simp only [flt, decide_eq_true_eq] at *
    linarith
  fabs_of_pos {x} h := abs_of_pos (by simpa [flt, ofRat] using h)
  fabs_of_neg {x} h := abs_of_neg (by simpa [flt, ofRat] using h)
  number_neg _ := decide_eq_true rfl
  neg_flt_neg {x y} := by simp [flt]
  neg_flt_zero {x} := by simp [flt, ofRat]
  zero_flt_neg {x} := by simp [flt, ofRat]
  zero_flt_ofRat {q} h := by
    simp only [flt, ofRat, decide_eq_true_eq]
    exact lt_of_lt_of_le (by norm_num) h
  fle_ofRat {p q} h := by simpa [fle, ofRat] using h
  isFinite_zero := rfl

namespace FloatOrder

variable {F : Type u} [MachineFloat F] [FloatOrder F]

theorem flt_asymm {x y : F} (h : flt x y = true) : ¬ flt y x = true :=
  fun h' => flt_irrefl x (flt_trans h h')

theorem number_ofRat (q : ℚ) : Number (ofRat q : F) := (fle_iff.mp (fle_ofRat le_rfl)).1

/-- Of two equal values the difference is not positive. -/
theorem not_zero_flt_sub_self (x : F) : ¬ flt (ofRat 0) (x - x) = true :=
  fun h => flt_irrefl x (zero_flt_sub.mp h)

/-! ## Predicates that only a smaller, or only a larger, number keeps -/

/-- `P` passes from a value to every number that is not above it. -/
def DownClosed (P : F → Prop) : Prop := ∀ x y, P x → ¬ flt x y = true → Number y → P y

/-- `P` passes from a value to every number that is not below it. -/
def UpClosed (P : F → Prop) : Prop := ∀ x y, P x → ¬ flt y x = true → Number y → P y

/-- A minimum that starts at a number stays one: NaN never replaces it. -/
theorem number_fmin {a : F} (ha : Number a) (b : F) : Number (fmin a b) := by
  unfold fmin
  split
  · exact (numbers_of_flt ‹_›).1
  · exact ha

theorem number_fmax {a : F} (ha : Number a) (b : F) : Number (fmax a b) := by
  unfold fmax
  split
  · exact (numbers_of_flt ‹_›).2
  · exact ha

namespace DownClosed

variable {P : F → Prop}

theorem fmin_iff (hP : DownClosed P) {a : F} (ha : Number a) (b : F) :
    P (fmin a b) ↔ P a ∨ P b := by
  unfold fmin
  split
  · rename_i hba
    exact ⟨Or.inr, fun h => h.elim (fun h => hP a b h (flt_asymm hba) (numbers_of_flt hba).1) id⟩
  · rename_i hba
    exact ⟨Or.inl, fun h => h.elim id fun h => hP b a h hba ha⟩

theorem fmax_iff (hP : DownClosed P) {a b : F} (ha : Number a) (hb : Number b) :
    P (fmax a b) ↔ P a ∧ P b := by
  unfold fmax
  split
  · rename_i hab
    exact ⟨fun h => ⟨hP b a h (flt_asymm hab) ha, h⟩, And.right⟩
  · rename_i hab
    exact ⟨fun h => ⟨h, hP a b h hab hb⟩, And.left⟩

theorem foldl_fmin_iff (hP : DownClosed P) (values : List F) {m : F} (hm : Number m) :
    P (values.foldl fmin m) ↔ P m ∨ ∃ v ∈ values, P v := by
  induction values generalizing m with
  | nil => simp
  | cons v rest ih =>
      rw [List.foldl_cons, ih (number_fmin hm v), hP.fmin_iff hm, List.exists_mem_cons_iff,
        or_assoc]

end DownClosed

namespace UpClosed

variable {P : F → Prop}

theorem fmax_iff (hP : UpClosed P) {a : F} (ha : Number a) (b : F) :
    P (fmax a b) ↔ P a ∨ P b := by
  unfold fmax
  split
  · rename_i hab
    exact ⟨Or.inr, fun h => h.elim (fun h => hP a b h (flt_asymm hab) (numbers_of_flt hab).2) id⟩
  · rename_i hab
    exact ⟨Or.inl, fun h => h.elim id fun h => hP b a h hab ha⟩

theorem fmin_iff (hP : UpClosed P) {a b : F} (ha : Number a) (hb : Number b) :
    P (fmin a b) ↔ P a ∧ P b := by
  unfold fmin
  split
  · rename_i hba
    exact ⟨fun h => ⟨hP b a h (flt_asymm hba) ha, h⟩, And.right⟩
  · rename_i hba
    exact ⟨fun h => ⟨h, hP a b h hba hb⟩, And.left⟩

theorem foldl_fmax_iff (hP : UpClosed P) (values : List F) {m : F} (hm : Number m) :
    P (values.foldl fmax m) ↔ P m ∨ ∃ v ∈ values, P v := by
  induction values generalizing m with
  | nil => simp
  | cons v rest ih =>
      rw [List.foldl_cons, ih (number_fmax hm v), hP.fmax_iff hm, List.exists_mem_cons_iff,
        or_assoc]

end UpClosed

/-- A minimum keeps what its start and every number among the values satisfy. -/
theorem foldl_fmin_of_forall {P : F → Prop} (values : List F) {m : F} (hm : P m)
    (hvalues : ∀ v ∈ values, Number v → P v) : P (values.foldl fmin m) := by
  induction values generalizing m with
  | nil => exact hm
  | cons v rest ih =>
      refine ih ?_ fun v hv => hvalues v (List.mem_cons_of_mem _ hv)
      unfold fmin
      split
      · rename_i hvm
        exact hvalues v List.mem_cons_self (numbers_of_flt hvm).1
      · exact hm

theorem foldl_fmax_of_forall {P : F → Prop} (values : List F) {m : F} (hm : P m)
    (hvalues : ∀ v ∈ values, Number v → P v) : P (values.foldl fmax m) := by
  induction values generalizing m with
  | nil => exact hm
  | cons v rest ih =>
      refine ih ?_ fun v hv => hvalues v (List.mem_cons_of_mem _ hv)
      unfold fmax
      split
      · rename_i hmv
        exact hvalues v List.mem_cons_self (numbers_of_flt hmv).2
      · exact hm

/-! ## Bounds -/

theorem fle_refl {x : F} (hx : Number x) : fle x x = true := fle_iff.mpr ⟨hx, hx, flt_irrefl x⟩

/-- Being at least a given number is kept upward. -/
theorem upClosed_fle (bound : F) : UpClosed fun x => fle bound x = true := by
  intro x y hx hyx hy
  obtain ⟨hbound, -, hnot⟩ := fle_iff.mp hx
  refine fle_iff.mpr ⟨hbound, hy, fun hlt => ?_⟩
  rcases flt_or_flt hlt (fle_iff.mp hx).2.1 with h | h
  exacts [hyx h, hnot h]

/-- Being at most a given number is kept downward. -/
theorem downClosed_fle (bound : F) : DownClosed fun x => fle x bound = true := by
  intro x y hx hxy hy
  obtain ⟨-, hbound, hnot⟩ := fle_iff.mp hx
  refine fle_iff.mpr ⟨hy, hbound, fun hlt => ?_⟩
  rcases flt_or_flt hlt (fle_iff.mp hx).1 with h | h
  exacts [hnot h, hxy h]

/-- Being at least a given number in the other direction is kept downward. -/
theorem downClosed_fle_neg (bound : F) : DownClosed fun x => fle bound (-x) = true :=
  fun x y hx hxy hy =>
    upClosed_fle bound (-x) (-y) hx (fun h => hxy (neg_flt_neg.mp h)) (number_neg hy)

theorem flt_of_flt_of_fle {x y z : F} (hxy : flt x y = true) (hyz : fle y z = true) :
    flt x z = true := by
  obtain ⟨-, hz, hnot⟩ := fle_iff.mp hyz
  exact (flt_or_flt hxy hz).resolve_right hnot

theorem fmin_fle_left {a : F} (ha : Number a) (b : F) : fle (fmin a b) a = true := by
  unfold fmin
  split
  · rename_i hba
    exact fle_iff.mpr ⟨(numbers_of_flt hba).1, ha, flt_asymm hba⟩
  · exact fle_refl ha

theorem fmin_fle_right {a b : F} (ha : Number a) (hb : Number b) :
    fle (fmin a b) b = true := by
  unfold fmin
  split
  · exact fle_refl hb
  · exact fle_iff.mpr ⟨ha, hb, ‹_›⟩

theorem fle_trans {x y z : F} (hxy : fle x y = true) (hyz : fle y z = true) :
    fle x z = true := by
  obtain ⟨-, hz, hnot⟩ := fle_iff.mp hyz
  exact upClosed_fle x y z hxy hnot hz

end FloatOrder
