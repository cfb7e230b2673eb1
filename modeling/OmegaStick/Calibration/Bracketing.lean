import OmegaStick.Calibration.Sweep
import OmegaStick.Library.FloatOrder
import Mathlib.Tactic.IntervalCases

/-!
# What an accepted sweep brackets

Half of the sectors is coverage enough for `range_calibration`, so a sweep of
one half of the circle is accepted although the stick was never on the other
side of the center.  This file states what an accepted sweep is used for, and
that it has this exactly when the raw readings went to both sides.

A reading counts toward an extent if the median filter lets it through: the
first three readings pass, and from then on it takes two of three consecutive
readings to move the median across a bound.
-/

namespace OmegaStick

open MachineFloat FloatOrder

variable {F : Type*}

/-! ## Readings that outlast the filter -/

/-- At least two of three values satisfy `P`. -/
def TwoOf (P : F → Prop) (a b c : F) : Prop := P a ∧ P b ∨ P a ∧ P c ∨ P b ∧ P c

/-- Two of some three consecutive values satisfy `P`. -/
def TwoOfThree (P : F → Prop) : List F → Prop
  | a :: b :: c :: rest => TwoOf P a b c ∨ TwoOfThree P (b :: c :: rest)
  | _ => False

/-- The readings satisfy `P` in a way that the median filter keeps: one of the
first three does, or two of some three consecutive ones do. -/
def Reaches (P : F → Prop) (values : List F) : Prop :=
  (∃ v ∈ values.take 3, P v) ∨ TwoOfThree P values

instance TwoOfThree.decidable (P : F → Prop) [DecidablePred P] :
    (values : List F) → Decidable (TwoOfThree P values)
  | a :: b :: c :: rest =>
      have := TwoOfThree.decidable P (b :: c :: rest)
      inferInstanceAs (Decidable ((P a ∧ P b ∨ P a ∧ P c ∨ P b ∧ P c) ∨ _))
  | [] => isFalse id
  | [_] => isFalse id
  | [_, _] => isFalse id

instance (P : F → Prop) [DecidablePred P] (values : List F) : Decidable (Reaches P values) :=
  inferInstanceAs (Decidable (_ ∨ _))

theorem TwoOfThree.exists_mem {P : F → Prop} :
    {values : List F} → TwoOfThree P values → ∃ v ∈ values, P v
  | a :: b :: c :: rest, h => by
      rcases h with (⟨ha, -⟩ | ⟨ha, -⟩ | ⟨hb, -⟩) | h
      · exact ⟨a, by simp, ha⟩
      · exact ⟨a, by simp, ha⟩
      · exact ⟨b, by simp, hb⟩
      · obtain ⟨v, hv, hPv⟩ := TwoOfThree.exists_mem h
        exact ⟨v, List.mem_cons_of_mem a hv, hPv⟩

theorem Reaches.exists_mem {P : F → Prop} {values : List F} (h : Reaches P values) :
    ∃ v ∈ values, P v := by
  rcases h with ⟨v, hv, hPv⟩ | h
  · exact ⟨v, List.mem_of_mem_take hv, hPv⟩
  · exact h.exists_mem

variable [MachineFloat F]

namespace MedianFilter3

/-- The median the filter takes of its three slots. -/
def median (a b c : F) : F := fmax (fmin a b) (fmin (fmax a b) c)

/-- What comes out of the filter for a stream of readings. -/
def outputs : MedianFilter3 F → List F → List F
  | _, [] => []
  | filter, value :: rest => (filter.update value).1 :: outputs (filter.update value).2 rest

/-- The two readings the next one is compared with, the older first. -/
def kept (filter : MedianFilter3 F) : F × F :=
  match filter.index, filter.history with
  | 0, (_, b, c) => (b, c)
  | 1, (a, _, c) => (c, a)
  | _, (a, b, _) => (a, b)

/-- The median decides `P` by majority. -/
def Majority (P : F → Prop) : Prop :=
  ∀ a b c, Number a → Number b → Number c → (P (median a b c) ↔ TwoOf P a b c)

variable [FloatOrder F]

theorem majority_of_downClosed {P : F → Prop} (hP : DownClosed P) : Majority P := by
  intro a b c ha hb hc
  have hmax : Number (fmax a b) := number_fmax ha b
  rw [median, hP.fmax_iff (number_fmin ha b) (number_fmin hmax c), hP.fmin_iff ha,
    hP.fmin_iff hmax, hP.fmax_iff ha hb, TwoOf]
  tauto

theorem majority_of_upClosed {P : F → Prop} (hP : UpClosed P) : Majority P := by
  intro a b c ha hb hc
  have hmax : Number (fmax a b) := number_fmax ha b
  rw [median, hP.fmax_iff (number_fmin ha b), hP.fmin_iff ha hb, hP.fmin_iff hmax hc,
    hP.fmax_iff ha, TwoOf]
  tauto

omit [FloatOrder F] in
/-- A full filter puts out the median of the new reading and the two it kept,
and keeps the newer two. -/
theorem update_full {P : F → Prop} (hP : Majority P) {filter : MedianFilter3 F}
    (hcount : filter.count = 3) (hindex : filter.index < 3) {a b : F}
    (hkept : filter.kept = (a, b)) {value : F} (ha : Number a) (hb : Number b)
    (hvalue : Number value) :
    (P (filter.update value).1 ↔ TwoOf P a b value) ∧
      (filter.update value).2.count = 3 ∧ (filter.update value).2.index < 3 ∧
      (filter.update value).2.kept = (b, value) := by
  obtain ⟨⟨u, v, w⟩, index, count⟩ := filter
  obtain rfl : count = 3 := hcount
  simp only at hindex
  interval_cases index
  all_goals
    simp only [kept, Prod.mk.injEq] at hkept
    obtain ⟨rfl, rfl⟩ := hkept
    refine ⟨?_, by simp [update], by simp [update], by simp [update, kept, store]⟩
  · exact (hP _ _ _ hvalue ha hb).trans (by simp only [TwoOf]; tauto)
  · exact (hP _ _ _ hb hvalue ha).trans (by simp only [TwoOf]; tauto)
  · exact hP _ _ _ ha hb hvalue

omit [FloatOrder F] in
theorem exists_outputs_full {P : F → Prop} (hP : Majority P) {values : List F}
    (hvalues : ∀ v ∈ values, Number v) {filter : MedianFilter3 F} (hcount : filter.count = 3)
    (hindex : filter.index < 3) {a b : F} (hkept : filter.kept = (a, b)) (ha : Number a)
    (hb : Number b) :
    (∃ m ∈ filter.outputs values, P m) ↔ TwoOfThree P (a :: b :: values) := by
  induction values generalizing filter a b with
  | nil => simp [outputs, TwoOfThree]
  | cons value rest ih =>
      have hvalue : Number value := hvalues value List.mem_cons_self
      obtain ⟨hout, hcount', hindex', hkept'⟩ :=
        update_full hP hcount hindex hkept ha hb hvalue
      rw [outputs, List.exists_mem_cons_iff, hout, TwoOfThree,
        ih (fun v hv => hvalues v (List.mem_cons_of_mem value hv)) hcount' hindex' hkept' hb
          hvalue]

omit [FloatOrder F] in
/-- Some output of a fresh filter satisfies `P` exactly when the readings reach it. -/
theorem exists_outputs_default {P : F → Prop} (hP : Majority P) {values : List F}
    (hvalues : ∀ v ∈ values, Number v) :
    (∃ m ∈ (default : MedianFilter3 F).outputs values, P m) ↔ Reaches P values := by
  match values, hvalues with
  | [], _ => simp [outputs, Reaches, TwoOfThree]
  | [x], _ => simp [outputs, Reaches, TwoOfThree, update, default]
  | [x, y], _ => simp [outputs, Reaches, TwoOfThree, update, default]
  | x :: y :: z :: rest, hvalues =>
      have hrest : ∀ v ∈ rest, Number v := fun v hv => hvalues v (by simp [hv])
      have hfull :
          (∃ m ∈ (⟨(x, y, z), 0, 3⟩ : MedianFilter3 F).outputs rest, P m) ↔
            TwoOfThree P (y :: z :: rest) :=
        exists_outputs_full hP hrest rfl (by norm_num) rfl (hvalues y (by simp))
          (hvalues z (by simp))
      have hfirst : (default : MedianFilter3 F).outputs (x :: y :: z :: rest) =
          x :: y :: z :: (⟨(x, y, z), 0, 3⟩ : MedianFilter3 F).outputs rest := by
        simp [outputs, update, store, default]
      rw [hfirst]
      simp only [List.exists_mem_cons_iff, hfull, Reaches, List.take_succ_cons, List.take_zero,
        TwoOfThree, TwoOf, List.not_mem_nil, false_and, exists_false]
      tauto

end MedianFilter3

/-! ## The extents of a sweep -/

/-- The x values of the reads that succeeded. -/
def readX (samples : List (Option (F × F))) : List F := samples.filterMap (Option.map Prod.fst)

/-- The y values of the reads that succeeded. -/
def readY (samples : List (Option (F × F))) : List F := samples.filterMap (Option.map Prod.snd)

theorem filterSamples_go_map_fst (samples : List (Option (F × F))) (xFilter yFilter) :
    (filterSamples.go samples xFilter yFilter).map Prod.fst = xFilter.outputs (readX samples) := by
  induction samples generalizing xFilter yFilter with
  | nil => rfl
  | cons sample rest ih =>
      rcases sample with _ | ⟨x, y⟩
      · exact ih xFilter yFilter
      · exact congrArg ((xFilter.update x).1 :: ·) (ih (xFilter.update x).2 (yFilter.update y).2)

theorem filterSamples_go_map_snd (samples : List (Option (F × F))) (xFilter yFilter) :
    (filterSamples.go samples xFilter yFilter).map Prod.snd = yFilter.outputs (readY samples) := by
  induction samples generalizing xFilter yFilter with
  | nil => rfl
  | cons sample rest ih =>
      rcases sample with _ | ⟨x, y⟩
      · exact ih xFilter yFilter
      · exact congrArg ((yFilter.update y).1 :: ·) (ih (xFilter.update x).2 (yFilter.update y).2)

namespace RangeSweep

variable [FloatMath F] (center : CenterResult F)

/-- The distances of filtered readings from a measured center. -/
def distances (measured : F) (values : List F) : List F :=
  (MedianFilter3.default.outputs values).map (· - measured)

theorem foldl_sample (valid : List (F × F)) (sweep : RangeSweep F) :
    let swept := valid.foldl
      (fun sweep s => sweep.sample (s.1 - center.centerX) (s.2 - center.centerY)) sweep
    swept.minX = ((valid.map Prod.fst).map (· - center.centerX)).foldl fmin sweep.minX ∧
      swept.maxX = ((valid.map Prod.fst).map (· - center.centerX)).foldl fmax sweep.maxX ∧
      swept.minY = ((valid.map Prod.snd).map (· - center.centerY)).foldl fmin sweep.minY ∧
      swept.maxY = ((valid.map Prod.snd).map (· - center.centerY)).foldl fmax sweep.maxY := by
  induction valid generalizing sweep with
  | nil => exact ⟨rfl, rfl, rfl, rfl⟩
  | cons s rest ih => exact ih (sweep.sample (s.1 - center.centerX) (s.2 - center.centerY))

/-- The extents are the extremes of the filtered distances. -/
theorem run_extents (samples : List (Option (F × F))) :
    let swept := run center (filterSamples samples)
    swept.minX = (distances center.centerX (readX samples)).foldl fmin floatMax ∧
      swept.maxX = (distances center.centerX (readX samples)).foldl fmax (-floatMax) ∧
      swept.minY = (distances center.centerY (readY samples)).foldl fmin floatMax ∧
      swept.maxY = (distances center.centerY (readY samples)).foldl fmax (-floatMax) := by
  have h := foldl_sample center (filterSamples samples) RangeSweep.init
  rwa [filterSamples, filterSamples_go_map_fst, filterSamples_go_map_snd] at h

end RangeSweep

section Extents

variable [FloatOrder F]

theorem zero_flt_floatMax : flt (ofRat 0) (floatMax : F) = true :=
  zero_flt_ofRat (by norm_num)

theorem neg_floatMax_flt_zero : flt (-floatMax : F) (ofRat 0) = true :=
  neg_flt_zero.mpr zero_flt_floatMax

theorem number_floatMax : Number (floatMax : F) := (numbers_of_flt zero_flt_floatMax).2

theorem number_neg_floatMax : Number (-floatMax : F) := number_neg number_floatMax

/-- A condition on negative distances that grows easier downward is, as a
condition on readings, of the same kind. -/
theorem downClosed_distance {Q : F → Prop} (hQ : DownClosed Q)
    (hneg : ∀ d, Q d → flt d (ofRat 0) = true) (measured : F) :
    DownClosed fun x => Q (x - measured) := by
  intro x y hx hxy hy
  have hxm : flt x measured = true := sub_flt_zero.mp (hneg _ hx)
  have hym : flt y measured = true := (flt_or_flt hxm hy).resolve_left hxy
  exact hQ (x - measured) (y - measured) hx (fun h => hxy (flt_of_sub_flt_sub h))
    (numbers_of_flt (sub_flt_zero.mpr hym)).1

theorem upClosed_distance {Q : F → Prop} (hQ : UpClosed Q)
    (hpos : ∀ d, Q d → flt (ofRat 0) d = true) (measured : F) :
    UpClosed fun x => Q (x - measured) := by
  intro x y hx hyx hy
  have hmx : flt measured x = true := zero_flt_sub.mp (hpos _ hx)
  have hmy : flt measured y = true := (flt_or_flt hmx hy).resolve_right hyx
  exact hQ (x - measured) (y - measured) hx (fun h => hyx (flt_of_sub_flt_sub h))
    (numbers_of_flt (zero_flt_sub.mpr hmy)).2

/-- The minimum satisfies a condition on negative distances exactly when the
readings reach it. -/
theorem minimum_iff {Q : F → Prop} (hQ : DownClosed Q)
    (hneg : ∀ d, Q d → flt d (ofRat 0) = true) {measured : F} {values : List F}
    (hvalues : ∀ v ∈ values, Number v) :
    Q ((RangeSweep.distances measured values).foldl fmin floatMax) ↔
      Reaches (fun x => Q (x - measured)) values := by
  have hstart : ¬ Q floatMax := fun h => flt_asymm (hneg _ h) zero_flt_floatMax
  rw [hQ.foldl_fmin_iff _ number_floatMax, or_iff_right hstart,
    ← MedianFilter3.exists_outputs_default
      (MedianFilter3.majority_of_downClosed (downClosed_distance hQ hneg measured)) hvalues]
  simp [RangeSweep.distances]

theorem maximum_iff {Q : F → Prop} (hQ : UpClosed Q)
    (hpos : ∀ d, Q d → flt (ofRat 0) d = true) {measured : F} {values : List F}
    (hvalues : ∀ v ∈ values, Number v) :
    Q ((RangeSweep.distances measured values).foldl fmax (-floatMax)) ↔
      Reaches (fun x => Q (x - measured)) values := by
  have hstart : ¬ Q (-floatMax) := fun h => flt_asymm (hpos _ h) neg_floatMax_flt_zero
  rw [hQ.foldl_fmax_iff _ number_neg_floatMax, or_iff_right hstart,
    ← MedianFilter3.exists_outputs_default
      (MedianFilter3.majority_of_upClosed (upClosed_distance hQ hpos measured)) hvalues]
  simp [RangeSweep.distances]

end Extents

/-! ## What the sweep is used for -/

/-- An axis mapping with its center strictly inside its range. -/
def RangeMapper.Ordered (mapper : RangeMapper F) : Prop :=
  flt mapper.minimum mapper.center = true ∧ flt mapper.center mapper.maximum = true

/-- The sweep saw the stick on both sides of the center on both axes: the
extents straddle it, the mapping built from them is ordered, and the usable
radius is positive and was reached in each direction. -/
structure Brackets (center : CenterResult F) (samples : List (Option (F × F)))
    (range : RangeResult F) : Prop where
  straddleX : flt range.minX (ofRat 0) = true ∧ flt (ofRat 0) range.maxX = true
  straddleY : flt range.minY (ofRat 0) = true ∧ flt (ofRat 0) range.maxY = true
  mapping (settings : DeviceSettings F) :
    (applyCalibration center range settings).x.Ordered ∧
      (applyCalibration center range settings).y.Ordered
  positive : flt (ofRat 0) range.usableRadius = true
  left : ∃ x ∈ readX samples, fle range.usableRadius (-(x - center.centerX)) = true
  right : ∃ x ∈ readX samples, fle range.usableRadius (x - center.centerX) = true
  down : ∃ y ∈ readY samples, fle range.usableRadius (-(y - center.centerY)) = true
  up : ∃ y ∈ readY samples, fle range.usableRadius (y - center.centerY) = true

/-- A reading below the measured center by a distance that still registers when
it is added to the effective center.  In exact arithmetic the second part
follows from the first. -/
def Below (measured effective x : F) : Prop :=
  flt x measured = true ∧ flt (effective + (x - measured)) effective = true

/-- A reading above the measured center, likewise. -/
def Above (measured effective x : F) : Prop :=
  flt measured x = true ∧ flt effective (effective + (x - measured)) = true

instance (measured effective : F) : DecidablePred (Below measured effective) := fun x =>
  inferInstanceAs (Decidable (flt x measured = true ∧ _))

instance (measured effective : F) : DecidablePred (Above measured effective) := fun x =>
  inferInstanceAs (Decidable (flt measured x = true ∧ _))

@[simp] theorem below_rat {measured effective x : ℚ} :
    Below measured effective x ↔ x < measured := by
  simp [Below, flt]

@[simp] theorem above_rat {measured effective x : ℚ} :
    Above measured effective x ↔ measured < x := by
  simp [Above, flt]

/-- The raw readings go to both sides of the center on both axes, for long
enough that the median filter keeps it. -/
structure SeenOnBothSides (center : CenterResult F) (samples : List (Option (F × F))) : Prop where
  left : Reaches (Below center.centerX center.effectiveCenterX) (readX samples)
  right : Reaches (Above center.centerX center.effectiveCenterX) (readX samples)
  down : Reaches (Below center.centerY center.effectiveCenterY) (readY samples)
  up : Reaches (Above center.centerY center.effectiveCenterY) (readY samples)

section Bracketing

variable [FloatOrder F]

theorem minimum_below_iff (measured effective : F) {values : List F}
    (hvalues : ∀ v ∈ values, Number v) :
    let minimum := (RangeSweep.distances measured values).foldl fmin floatMax
    flt minimum (ofRat 0) = true ∧ flt (effective + minimum) effective = true ↔
      Reaches (Below measured effective) values := by
  have hQ : DownClosed fun d =>
      flt d (ofRat 0) = true ∧ flt (effective + d) effective = true := by
    intro x y hx hxy hy
    exact ⟨(flt_or_flt hx.1 hy).resolve_left hxy, add_flt_of_not_flt hx.2 hxy hy⟩
  have hbelow : Below measured effective = fun x =>
      flt (x - measured) (ofRat 0) = true ∧ flt (effective + (x - measured)) effective = true := by
    funext x
    rw [Below, ← sub_flt_zero]
  rw [hbelow]
  exact minimum_iff hQ (fun d h => h.1) hvalues

theorem maximum_above_iff (measured effective : F) {values : List F}
    (hvalues : ∀ v ∈ values, Number v) :
    let maximum := (RangeSweep.distances measured values).foldl fmax (-floatMax)
    flt (ofRat 0) maximum = true ∧ flt effective (effective + maximum) = true ↔
      Reaches (Above measured effective) values := by
  have hQ : UpClosed fun d =>
      flt (ofRat 0) d = true ∧ flt effective (effective + d) = true := by
    intro x y hx hyx hy
    exact ⟨(flt_or_flt hx.1 hy).resolve_right hyx, flt_add_of_not_flt hx.2 hyx hy⟩
  have habove : Above measured effective = fun x =>
      flt (ofRat 0) (x - measured) = true ∧ flt effective (effective + (x - measured)) = true := by
    funext x
    rw [Above, ← zero_flt_sub]
  rw [habove]
  exact maximum_iff hQ (fun d h => h.1) hvalues

/-- A positive distance that the maximum reaches, a reading reached. -/
theorem maximum_reached {measured bound : F} {values : List F}
    (hvalues : ∀ v ∈ values, Number v) (hbound : flt (ofRat 0) bound = true)
    (h : fle bound ((RangeSweep.distances measured values).foldl fmax (-floatMax)) = true) :
    ∃ v ∈ values, fle bound (v - measured) = true :=
  Reaches.exists_mem ((maximum_iff (upClosed_fle bound)
    (fun _ hd => flt_of_flt_of_fle hbound hd) hvalues).mp h)

theorem minimum_reached {measured bound : F} {values : List F}
    (hvalues : ∀ v ∈ values, Number v) (hbound : flt (ofRat 0) bound = true)
    (h : fle bound (-(RangeSweep.distances measured values).foldl fmin floatMax) = true) :
    ∃ v ∈ values, fle bound (-(v - measured)) = true :=
  Reaches.exists_mem ((minimum_iff (downClosed_fle_neg bound)
    (fun _ hd => zero_flt_neg.mp (flt_of_flt_of_fle hbound hd)) hvalues).mp h)

/-- With extents on both sides of zero the absolute values hide nothing: the
usable radius is at most the distance of each extent. -/
theorem usableRadius_fle [FloatMath F] {sweep : RangeSweep F}
    (hx : flt sweep.minX (ofRat 0) = true ∧ flt (ofRat 0) sweep.maxX = true)
    (hy : flt sweep.minY (ofRat 0) = true ∧ flt (ofRat 0) sweep.maxY = true) :
    fle sweep.usableRadius (-sweep.minX) = true ∧ fle sweep.usableRadius sweep.maxX = true ∧
      fle sweep.usableRadius (-sweep.minY) = true ∧ fle sweep.usableRadius sweep.maxY = true := by
  have hminX : Number (-sweep.minX) := number_neg (numbers_of_flt hx.1).1
  have hmaxX : Number sweep.maxX := (numbers_of_flt hx.2).2
  have hminY : Number (-sweep.minY) := number_neg (numbers_of_flt hy.1).1
  have hmaxY : Number sweep.maxY := (numbers_of_flt hy.2).2
  rw [RangeSweep.usableRadius, fabs_of_pos hx.2, fabs_of_neg hx.1, fabs_of_pos hy.2,
    fabs_of_neg hy.1]
  have hX : Number (fmin sweep.maxX (-sweep.minX)) := number_fmin hmaxX _
  have hXY : Number (fmin (fmin sweep.maxX (-sweep.minX)) sweep.maxY) := number_fmin hX _
  have houter := fmin_fle_left hXY (-sweep.minY)
  have hinner := fle_trans houter (fmin_fle_left hX sweep.maxY)
  exact ⟨fle_trans hinner (fmin_fle_right hmaxX hminX), fle_trans hinner (fmin_fle_left hmaxX _),
    fmin_fle_right hXY hminY, fle_trans houter (fmin_fle_right hX hmaxY)⟩

/-- An accepted usable radius that is a number is positive. -/
theorem zero_flt_usableRadius {center : CenterResult F} {range : RangeResult F} {tolerance : F}
    (h : checkUsable center range tolerance = true) (hnumber : Number range.usableRadius) :
    flt (ofRat 0) range.usableRadius = true := by
  by_contra hnot
  have hzero : fle range.usableRadius (ofRat 0) = true :=
    fle_iff.mpr ⟨hnumber, number_ofRat 0, hnot⟩
  simp [checkUsable, hzero] at h

/-- An accepted sweep brackets the center exactly when the raw readings went to
both sides of it on both axes. -/
theorem brackets_iff [FloatMath F] {center : CenterResult F} {samples : List (Option (F × F))}
    {range : RangeResult F} (hx : ∀ x ∈ readX samples, Number x)
    (hy : ∀ y ∈ readY samples, Number y)
    (haccepted : rangeCalibration center samples = .ok range) :
    Brackets center samples range ↔ SeenOnBothSides center samples := by
  obtain ⟨rfl, husable⟩ := rangeCalibration_accepted haccepted
  obtain ⟨hminX, hmaxX, hminY, hmaxY⟩ := RangeSweep.run_extents center samples
  constructor
  · intro h
    obtain ⟨⟨hx₁, hx₂⟩, hy₁, hy₂⟩ := h.mapping .default
    exact {
      left := (minimum_below_iff _ _ hx).mp (hminX ▸ ⟨h.straddleX.1, hx₁⟩)
      right := (maximum_above_iff _ _ hx).mp (hmaxX ▸ ⟨h.straddleX.2, hx₂⟩)
      down := (minimum_below_iff _ _ hy).mp (hminY ▸ ⟨h.straddleY.1, hy₁⟩)
      up := (maximum_above_iff _ _ hy).mp (hmaxY ▸ ⟨h.straddleY.2, hy₂⟩) }
  · intro h
    have hleft := (minimum_below_iff _ _ hx).mpr h.left
    have hright := (maximum_above_iff _ _ hx).mpr h.right
    have hdown := (minimum_below_iff _ _ hy).mpr h.down
    have hup := (maximum_above_iff _ _ hy).mpr h.up
    rw [← hminX] at hleft
    rw [← hmaxX] at hright
    rw [← hminY] at hdown
    rw [← hmaxY] at hup
    obtain ⟨hl, hr, hd, hu⟩ := usableRadius_fle ⟨hleft.1, hright.1⟩ ⟨hdown.1, hup.1⟩
    have hpositive := zero_flt_usableRadius husable (fle_iff.mp hr).1
    exact {
      straddleX := ⟨hleft.1, hright.1⟩
      straddleY := ⟨hdown.1, hup.1⟩
      mapping := fun _ => ⟨⟨hleft.2, hright.2⟩, hdown.2, hup.2⟩
      positive := hpositive
      left := minimum_reached hx hpositive (hminX ▸ hl)
      right := maximum_reached hx hpositive (hmaxX ▸ hr)
      down := minimum_reached hy hpositive (hminY ▸ hd)
      up := maximum_reached hy hpositive (hmaxY ▸ hu) }

/-- A center at the origin with a little noise. -/
def quietCenter : CenterResult ℚ := ⟨0, 0, 1 / 2, 0, 0, 0⟩

/-- A sweep that visits each of sixteen points for three readings, between failed reads. -/
def visiting (points : List (ℚ × ℚ)) : List (Option (ℚ × ℚ)) :=
  (points.flatMap fun point => List.replicate 3 (some point)) ++ List.replicate 152 none

/-- One full circle. -/
def fullCircle : List (Option (ℚ × ℚ)) :=
  visiting [(39, 8), (33, 22), (22, 33), (8, 39), (-8, 39), (-22, 33), (-33, 22), (-39, 8),
    (-39, -8), (-33, -22), (-22, -33), (-8, -39), (8, -39), (22, -33), (33, -22), (39, -8)]

theorem brackets_fullCircle : ∃ range, rangeCalibration quietCenter fullCircle = .ok range ∧
    Brackets quietCenter fullCircle range := by
  have haccepted : (rangeCalibration quietCenter fullCircle).toOption.isSome = true := by
    decide +kernel
  cases hrange : rangeCalibration quietCenter fullCircle with
  | error e => simp [hrange, Except.toOption] at haccepted
  | ok range =>
      refine ⟨range, rfl, (brackets_iff ?_ ?_ hrange).mpr ⟨?_, ?_, ?_, ?_⟩⟩
      · exact fun _ _ => decide_eq_true rfl
      · exact fun _ _ => decide_eq_true rfl
      all_goals decide +kernel

/-- The upper half of the circle only: sixteen sectors, which is half of them
and, as the host tests have it, enough. -/
def upperHalfCircle : List (Option (ℚ × ℚ)) :=
  visiting [(40, 4), (38, 12), (35, 19), (31, 25), (25, 31), (19, 35), (12, 38), (4, 40),
    (-4, 40), (-12, 38), (-19, 35), (-25, 31), (-31, 25), (-35, 19), (-38, 12), (-40, 4)]

/-- The upper half circle is accepted, with the center below the y extents. -/
theorem not_brackets_upperHalfCircle :
    ¬ ∀ (center : CenterResult ℚ) (samples : List (Option (ℚ × ℚ))) (range : RangeResult ℚ),
      rangeCalibration center samples = .ok range → Brackets center samples range := by
  intro h
  have haccepted : (rangeCalibration quietCenter upperHalfCircle).toOption.any
      (fun range => !flt range.minY 0) = true := by
    decide +kernel
  cases hrange : rangeCalibration quietCenter upperHalfCircle with
  | error e => simp [hrange, Except.toOption] at haccepted
  | ok range =>
      have hdown : flt range.minY 0 = true := (h _ _ _ hrange).straddleY.1
      simp [hrange, Except.toOption, hdown] at haccepted

end Bracketing

end OmegaStick
