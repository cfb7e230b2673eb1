import OmegaStick.Calibration.Bracketing

/-!
# A single spike in a sweep

One reading of a sweep is replaced by any value.  From the fourth successful
reading on the median filter keeps it from the extents: every window it falls
into holds two other readings, and the median is between them.  The first three
readings pass the filter as they are, so there the extents stay within those of
the other readings exactly when the value does not stand out from them.
-/

namespace OmegaStick

open MachineFloat FloatOrder

variable {F : Type*} [MachineFloat F]

/-! ## Windows of the filter -/

namespace MedianFilter3

/-- The median is one of the three. -/
theorem median_mem (a b c : F) : median a b c = a ∨ median a b c = b ∨ median a b c = c := by
  unfold median fmax fmin
  split_ifs <;> simp

/-- What a full filter puts out is a median of three consecutive readings. -/
theorem mem_outputs_full {values : List F} {filter : MedianFilter3 F} (hcount : filter.count = 3)
    (hindex : filter.index < 3) {a b m : F} (hkept : filter.kept = (a, b))
    (hm : m ∈ filter.outputs values) :
    ∃ x y z, [x, y, z] <:+: a :: b :: values ∧
      (m = median x y z ∨ m = median z x y ∨ m = median y z x) := by
  induction values generalizing filter a b with
  | nil => cases hm
  | cons value rest ih =>
      have hstep : ((filter.update value).1 = median a b value ∨
          (filter.update value).1 = median value a b ∨
            (filter.update value).1 = median b value a) ∧
          (filter.update value).2.count = 3 ∧ (filter.update value).2.index < 3 ∧
            (filter.update value).2.kept = (b, value) := by
        obtain ⟨⟨u, v, w⟩, index, count⟩ := filter
        obtain rfl : count = 3 := hcount
        simp only at hindex
        interval_cases index
        all_goals
          simp only [kept, Prod.mk.injEq] at hkept
          obtain ⟨rfl, rfl⟩ := hkept
          simp [update, store, median, kept]
      obtain ⟨hout, hcount', hindex', hkept'⟩ := hstep
      rcases List.mem_cons.mp hm with rfl | hm
      · exact ⟨a, b, value, ⟨[], rest, rfl⟩, hout⟩
      · obtain ⟨x, y, z, hinfix, hmedian⟩ := ih hcount' hindex' hkept' hm
        exact ⟨x, y, z, hinfix.trans (List.suffix_cons _ _).isInfix, hmedian⟩

/-- What the filter puts out is one of the first three readings, or a median of
three consecutive ones. -/
theorem mem_outputs {values : List F} {m : F}
    (hm : m ∈ (default : MedianFilter3 F).outputs values) :
    m ∈ values.take 3 ∨ ∃ x y z, [x, y, z] <:+: values ∧
      (m = median x y z ∨ m = median z x y ∨ m = median y z x) := by
  match values, hm with
  | [], hm => cases hm
  | [x], hm => exact .inl (by simpa [outputs, update, default] using hm)
  | [x, y], hm => exact .inl (by simpa [outputs, update, default] using hm)
  | x :: y :: z :: rest, hm =>
      have hfirst : (default : MedianFilter3 F).outputs (x :: y :: z :: rest) =
          x :: y :: z :: (⟨(x, y, z), 0, 3⟩ : MedianFilter3 F).outputs rest := by
        simp [outputs, update, store, default]
      rw [hfirst, List.mem_cons, List.mem_cons, List.mem_cons] at hm
      rcases hm with rfl | rfl | rfl | hm
      · exact .inl (by simp)
      · exact .inl (by simp)
      · exact .inl (by simp)
      · obtain ⟨u, v, w, hinfix, hmedian⟩ := mem_outputs_full rfl (by norm_num) rfl hm
        exact .inr ⟨u, v, w, hinfix.trans (List.suffix_cons _ _).isInfix, hmedian⟩

/-- The first three readings pass. -/
theorem mem_outputs_of_mem_take {values : List F} {v : F} (hv : v ∈ values.take 3) :
    v ∈ (default : MedianFilter3 F).outputs values := by
  match values, hv with
  | [x], hv => simpa [outputs, update, default] using hv
  | [x, y], hv => simpa [outputs, update, default] using hv
  | x :: y :: z :: rest, hv =>
      simp only [List.take_succ_cons, List.take_zero, List.mem_cons, List.not_mem_nil,
        or_false] at hv
      simp only [outputs, update, default, List.mem_cons]
      tauto

end MedianFilter3

/-! ## The other readings of a window -/

section Windows

variable {α : Type*} {spike : α} {after : List α}

/-- Of two consecutive values at most one stands at a given position. -/
theorem oneOf_of_infix {before : List α} {a b : α} (h : [a, b] <:+: before ++ spike :: after) :
    a ∈ before ++ after ∨ b ∈ before ++ after := by
  induction before with
  | nil =>
      rcases List.infix_cons_iff.mp h with h | h
      · exact .inr ((List.cons_prefix_cons.mp h).2.subset (by simp))
      · exact .inl (h.subset (by simp))
  | cons x before ih =>
      rcases List.infix_cons_iff.mp h with h | h
      · obtain ⟨rfl, -⟩ := List.cons_prefix_cons.mp h
        exact .inl (by simp)
      · exact (ih h).imp (List.mem_cons_of_mem x) (List.mem_cons_of_mem x)

/-- Of three consecutive values at most one stands at a given position. -/
theorem twoOf_of_infix {before : List α} {a b c : α}
    (h : [a, b, c] <:+: before ++ spike :: after) : TwoOf (· ∈ before ++ after) a b c := by
  induction before with
  | nil =>
      rcases List.infix_cons_iff.mp h with h | h
      · have hrest := (List.cons_prefix_cons.mp h).2.subset
        exact .inr (.inr ⟨hrest (by simp), hrest (by simp)⟩)
      · exact .inl ⟨h.subset (by simp), h.subset (by simp)⟩
  | cons x before ih =>
      rcases List.infix_cons_iff.mp h with h | h
      · obtain ⟨rfl, hrest⟩ := List.cons_prefix_cons.mp h
        have ha : a ∈ a :: before ++ after := by simp
        rcases oneOf_of_infix hrest.isInfix with hb | hc
        · exact .inl ⟨ha, List.mem_cons_of_mem a hb⟩
        · exact .inr (.inl ⟨ha, List.mem_cons_of_mem a hc⟩)
      · have hmem {v : α} : v ∈ before ++ after → v ∈ x :: before ++ after :=
          List.mem_cons_of_mem x
        exact (ih h).imp (And.imp hmem hmem) (Or.imp (And.imp hmem hmem) (And.imp hmem hmem))

/-- The first three values without the one at a given position. -/
theorem mem_take_three {before : List α} {v : α} (hv : v ∈ (before ++ spike :: after).take 3) :
    v ∈ before ++ after ∨ v = spike ∧ before.length < 3 := by
  rw [List.take_append, List.mem_append] at hv
  rcases hv with hv | hv
  · exact .inl (List.mem_append_left _ (List.mem_of_mem_take hv))
  · have hlength : before.length < 3 := by
      by_contra hlong
      simp [Nat.sub_eq_zero_of_le (not_lt.mp hlong)] at hv
    rcases List.mem_cons.mp (List.mem_of_mem_take hv) with rfl | hv
    · exact .inr ⟨rfl, hlength⟩
    · exact .inl (List.mem_append_right _ hv)

theorem mem_take_of_early {before : List α} (h : before.length < 3) :
    spike ∈ (before ++ spike :: after).take 3 := by
  rw [List.take_append, List.mem_append]
  right
  rw [List.take_cons (Nat.sub_pos_of_lt h)]
  exact List.mem_cons_self

end Windows

/-! ## Bounds by the other readings -/

section Bounds

variable [FloatOrder F] {others : List F}

/-- Two numbers have a smaller one and a larger one. -/
theorem exists_fle_both {x y : F} (hx : Number x) (hy : Number y) :
    (∃ low, (low = x ∨ low = y) ∧ fle low x = true ∧ fle low y = true) ∧
      ∃ high, (high = x ∨ high = y) ∧ fle x high = true ∧ fle y high = true := by
  by_cases hyx : flt y x = true
  · have hle : fle y x = true := fle_iff.mpr ⟨hy, hx, flt_asymm hyx⟩
    exact ⟨⟨y, .inr rfl, hle, fle_refl hy⟩, ⟨x, .inl rfl, fle_refl hx, hle⟩⟩
  · have hle : fle x y = true := fle_iff.mpr ⟨hx, hy, hyx⟩
    exact ⟨⟨x, .inl rfl, fle_refl hx, hle⟩, ⟨y, .inr rfl, hle, fle_refl hy⟩⟩

/-- A value that follows the majority of two other readings is between two of them. -/
theorem between_of_majority (hothers : ∀ o ∈ others, Number o) {x y m : F} (hx : x ∈ others)
    (hy : y ∈ others)
    (h : ∀ P : F → Prop, MedianFilter3.Majority P → P x → P y → P m) :
    (∃ o ∈ others, fle o m = true) ∧ ∃ o ∈ others, fle m o = true := by
  obtain ⟨⟨low, hlow, hlx, hly⟩, high, hhigh, hxh, hyh⟩ :=
    exists_fle_both (hothers x hx) (hothers y hy)
  refine ⟨⟨low, ?_, ?_⟩, ⟨high, ?_, ?_⟩⟩
  · rcases hlow with rfl | rfl <;> assumption
  · exact h _ (MedianFilter3.majority_of_upClosed (upClosed_fle low)) hlx hly
  · rcases hhigh with rfl | rfl <;> assumption
  · exact h _ (MedianFilter3.majority_of_downClosed (downClosed_fle high)) hxh hyh

/-- A median with two other readings among its three values is between two other
readings, or NaN. -/
theorem median_between (hothers : ∀ o ∈ others, Number o) {a b c : F}
    (h : TwoOf (· ∈ others) a b c) (hnumber : Number (MedianFilter3.median a b c)) :
    (∃ o ∈ others, fle o (MedianFilter3.median a b c) = true) ∧
      ∃ o ∈ others, fle (MedianFilter3.median a b c) o = true := by
  have hmedian := MedianFilter3.median_mem a b c
  by_cases hmem : MedianFilter3.median a b c ∈ others
  · exact ⟨⟨_, hmem, fle_refl hnumber⟩, ⟨_, hmem, fle_refl hnumber⟩⟩
  -- a median that is no other reading is the third value, which is then a number
  have hthird {v : F} (hv : v ∈ others) : MedianFilter3.median a b c ≠ v :=
    fun heq => hmem (heq.symm ▸ hv)
  rcases h with ⟨ha, hb⟩ | ⟨ha, hc⟩ | ⟨hb, hc⟩
  · have hnc : Number c := by
      have heq := (hmedian.resolve_left (hthird ha)).resolve_left (hthird hb)
      rwa [heq] at hnumber
    exact between_of_majority hothers ha hb fun P hP hPa hPb =>
      (hP a b c (hothers a ha) (hothers b hb) hnc).mpr (.inl ⟨hPa, hPb⟩)
  · have hnb : Number b := by
      have heq := (hmedian.resolve_left (hthird ha)).resolve_right (hthird hc)
      rwa [heq] at hnumber
    exact between_of_majority hothers ha hc fun P hP hPa hPc =>
      (hP a b c (hothers a ha) hnb (hothers c hc)).mpr (.inr (.inl ⟨hPa, hPc⟩))
  · have hna : Number a := by
      have heq := hmedian.resolve_right (not_or.mpr ⟨hthird hb, hthird hc⟩)
      rwa [heq] at hnumber
    exact between_of_majority hothers hb hc fun P hP hPb hPc =>
      (hP a b c hna (hothers b hb) (hothers c hc)).mpr (.inr (.inr ⟨hPb, hPc⟩))

end Bounds

/-! ## The extents -/

/-- Within the smallest and the largest of the other readings, relative to the center. -/
def Within (measured : F) (others : List F) (extent : F) : Prop :=
  (∃ o ∈ others, fle (o - measured) extent = true) ∧
    ∃ o ∈ others, fle extent (o - measured) = true

instance (measured : F) (others : List F) (extent : F) :
    Decidable (Within measured others extent) :=
  inferInstanceAs (Decidable ((∃ o ∈ others, _) ∧ ∃ o ∈ others, _))

/-- A value that, relative to the center, is below all of the other readings or above all
of them. -/
def StandsOut (measured : F) (others : List F) (value : F) : Prop :=
  (∀ o ∈ others, flt (value - measured) (o - measured) = true) ∨
    ∀ o ∈ others, flt (o - measured) (value - measured) = true

/-- A reading whose distance from the center is a finite float. -/
structure InReach (measured x : F) : Prop where
  number : Number x
  low : fle (-floatMax) (x - measured) = true
  high : fle (x - measured) floatMax = true

section Extents

variable [FloatOrder F] {measured : F} {before after : List F} {spike : F}

theorem fle_sub_of_fle {x y : F} (hxy : fle x y = true) (hx : Number (x - measured))
    (hy : Number (y - measured)) : fle (x - measured) (y - measured) = true :=
  fle_iff.mpr ⟨hx, hy, fun h => (fle_iff.mp hxy).2.2 (flt_of_sub_flt_sub h)⟩

/-- A distance that counts is within the other readings, or it is the spike's own and the
filter let it through. -/
theorem within_of_mem_distances [FloatNaN F] (hreach : ∀ o ∈ before ++ after, InReach measured o)
    (hspike : 3 ≤ before.length ∨ ¬ StandsOut measured (before ++ after) spike) {d : F}
    (hd : d ∈ RangeSweep.distances measured (before ++ spike :: after)) (hnumber : Number d) :
    Within measured (before ++ after) d := by
  obtain ⟨m, hm, rfl⟩ := List.mem_map.mp hd
  have hothers : ∀ o ∈ before ++ after, Number o := fun o ho => (hreach o ho).number
  have hdistance : ∀ o ∈ before ++ after, Number (o - measured) := fun o ho =>
    (fle_iff.mp (hreach o ho).high).1
  have hbetween : ((∃ o ∈ before ++ after, fle o m = true) ∧
      ∃ o ∈ before ++ after, fle m o = true) →
    Within measured (before ++ after) (m - measured) := by
    rintro ⟨⟨low, hlow, hle⟩, high, hhigh, hge⟩
    exact ⟨⟨low, hlow, fle_sub_of_fle hle (hdistance low hlow) hnumber⟩,
      ⟨high, hhigh, fle_sub_of_fle hge hnumber (hdistance high hhigh)⟩⟩
  have hm' : Number m := FloatNaN.number_of_sub hnumber
  rcases MedianFilter3.mem_outputs hm with hfirst | ⟨x, y, z, hinfix, hmedian⟩
  · rcases mem_take_three hfirst with hmem | ⟨rfl, hearly⟩
    · exact hbetween ⟨⟨m, hmem, fle_refl hm'⟩, ⟨m, hmem, fle_refl hm'⟩⟩
    · -- one of the first three readings, which does not stand out
      obtain ⟨hlow, hhigh⟩ := not_or.mp (hspike.resolve_left (not_le.mpr hearly))
      push Not at hlow hhigh
      obtain ⟨low, hmemLow, hlow⟩ := hlow
      obtain ⟨high, hmemHigh, hhigh⟩ := hhigh
      exact ⟨⟨low, hmemLow, fle_iff.mpr ⟨hdistance low hmemLow, hnumber, hlow⟩⟩,
        ⟨high, hmemHigh, fle_iff.mpr ⟨hnumber, hdistance high hmemHigh, hhigh⟩⟩⟩
  · have htwo := twoOf_of_infix hinfix
    refine hbetween ?_
    rcases hmedian with rfl | rfl | rfl
    · exact median_between hothers htwo hm'
    · exact median_between hothers (by simp only [TwoOf] at htwo ⊢; tauto) hm'
    · exact median_between hothers (by simp only [TwoOf] at htwo ⊢; tauto) hm'

omit [FloatOrder F] in
/-- With four readings or more, one of the others is among the first three. -/
theorem exists_other_mem_distances (hthree : 3 ≤ (before ++ after).length) :
    ∃ o ∈ before ++ after,
      o - measured ∈ RangeSweep.distances measured (before ++ spike :: after) := by
  have hmem : ∃ o ∈ before ++ after, o ∈ (before ++ spike :: after).take 3 := by
    cases before with
    | nil =>
        cases after with
        | nil => simp at hthree
        | cons o after => exact ⟨o, by simp, by simp⟩
    | cons o before => exact ⟨o, by simp, by simp⟩
  obtain ⟨o, ho, htake⟩ := hmem
  exact ⟨o, ho, List.mem_map.mpr ⟨o, MedianFilter3.mem_outputs_of_mem_take htake, rfl⟩⟩

/-- One axis of a sweep. -/
theorem within_iff [FloatNaN F] (hthree : 3 ≤ (before ++ after).length)
    (hreach : ∀ o ∈ before ++ after, InReach measured o) :
    let distances := RangeSweep.distances measured (before ++ spike :: after)
    Within measured (before ++ after) (distances.foldl fmin floatMax) ∧
        Within measured (before ++ after) (distances.foldl fmax (-floatMax)) ↔
      3 ≤ before.length ∨ ¬ StandsOut measured (before ++ after) spike := by
  intro distances
  obtain ⟨o, ho, hpasses⟩ : ∃ o ∈ before ++ after, o - measured ∈ distances :=
    exists_other_mem_distances hthree
  have hnumber : Number (o - measured) := (fle_iff.mp (hreach o ho).high).1
  constructor
  · rintro ⟨hmin, hmax⟩
    by_contra hnot
    obtain ⟨hearly, hstands⟩ := not_or.mp hnot
    have hspike : spike - measured ∈ distances :=
      List.mem_map.mpr ⟨spike, MedianFilter3.mem_outputs_of_mem_take
        (mem_take_of_early (not_le.mp hearly)), rfl⟩
    rcases not_not.mp hstands with hbelow | habove
    · -- the minimum is then below all of the other readings
      have hlow : DownClosed fun d => ∀ o ∈ before ++ after, flt d (o - measured) = true :=
        fun x y hx hxy hy o ho => (flt_or_flt (hx o ho) hy).resolve_left hxy
      have hall := (hlow.foldl_fmin_iff distances number_floatMax).mpr (.inr ⟨_, hspike, hbelow⟩)
      obtain ⟨low, hlowMem, hle⟩ := hmin.1
      exact (fle_iff.mp hle).2.2 (hall low hlowMem)
    · have hhigh : UpClosed fun d => ∀ o ∈ before ++ after, flt (o - measured) d = true :=
        fun x y hx hyx hy o ho => (flt_or_flt (hx o ho) hy).resolve_right hyx
      have hall := (hhigh.foldl_fmax_iff distances number_neg_floatMax).mpr
        (.inr ⟨_, hspike, habove⟩)
      obtain ⟨high, hhighMem, hge⟩ := hmax.2
      exact (fle_iff.mp hge).2.2 (hall high hhighMem)
  · intro hspike
    have hwithin : ∀ d ∈ distances, Number d → Within measured (before ++ after) d :=
      fun d hd => within_of_mem_distances hreach hspike hd
    have hdown : DownClosed fun d => ∃ o ∈ before ++ after, fle d (o - measured) = true := by
      rintro x y ⟨o, ho, hle⟩ hxy hy
      exact ⟨o, ho, downClosed_fle _ x y hle hxy hy⟩
    have hup : UpClosed fun d => ∃ o ∈ before ++ after, fle (o - measured) d = true := by
      rintro x y ⟨o, ho, hle⟩ hyx hy
      exact ⟨o, ho, upClosed_fle _ x y hle hyx hy⟩
    have hself : fle (o - measured) (o - measured) = true := fle_refl hnumber
    refine ⟨⟨?_, ?_⟩, ?_, ?_⟩
    · exact foldl_fmin_of_forall distances ⟨o, ho, (hreach o ho).high⟩
        fun d hd hnumber => (hwithin d hd hnumber).1
    · exact (hdown.foldl_fmin_iff distances number_floatMax).mpr
        (.inr ⟨_, hpasses, o, ho, hself⟩)
    · exact (hup.foldl_fmax_iff distances number_neg_floatMax).mpr
        (.inr ⟨_, hpasses, o, ho, hself⟩)
    · exact foldl_fmax_of_forall distances ⟨o, ho, (hreach o ho).low⟩
        fun d hd hnumber => (hwithin d hd hnumber).2

end Extents

/-! ## A whole sweep -/

/-- The sweep of the readings `before`, one more and the readings `after` has its extents
within those of the other readings. -/
structure SpikeDropped [FloatMath F] (center : CenterResult F) (before : List (Option (F × F)))
    (spike : F × F) (after : List (Option (F × F))) : Prop where
  minX : Within center.centerX (readX (before ++ after))
    (RangeSweep.run center (filterSamples (before ++ some spike :: after))).minX
  maxX : Within center.centerX (readX (before ++ after))
    (RangeSweep.run center (filterSamples (before ++ some spike :: after))).maxX
  minY : Within center.centerY (readY (before ++ after))
    (RangeSweep.run center (filterSamples (before ++ some spike :: after))).minY
  maxY : Within center.centerY (readY (before ++ after))
    (RangeSweep.run center (filterSamples (before ++ some spike :: after))).maxY

omit [MachineFloat F] in
theorem readX_append (before after : List (Option (F × F))) :
    readX (before ++ after) = readX before ++ readX after := List.filterMap_append

omit [MachineFloat F] in
theorem readY_append (before after : List (Option (F × F))) :
    readY (before ++ after) = readY before ++ readY after := List.filterMap_append

omit [MachineFloat F] in
theorem length_readY (samples : List (Option (F × F))) :
    (readY samples).length = (readX samples).length := by
  induction samples with
  | nil => rfl
  | cons sample rest ih =>
      cases sample with
      | none => exact ih
      | some reading => exact congrArg (· + 1) ih

/-- Whatever value one reading of a sweep has, the extents stay within those of the other
readings, exactly when it is the fourth successful one or later, or does not stand out. -/
theorem spikeDropped_iff [FloatOrder F] [FloatNaN F] [FloatMath F] {center : CenterResult F}
    {before after : List (Option (F × F))} (spike : F × F)
    (hthree : 3 ≤ (readX (before ++ after)).length)
    (hx : ∀ x ∈ readX (before ++ after), InReach center.centerX x)
    (hy : ∀ y ∈ readY (before ++ after), InReach center.centerY y) :
    SpikeDropped center before spike after ↔
      3 ≤ (readX before).length ∨
        ¬ StandsOut center.centerX (readX (before ++ after)) spike.1 ∧
          ¬ StandsOut center.centerY (readY (before ++ after)) spike.2 := by
  obtain ⟨hminX, hmaxX, hminY, hmaxY⟩ :=
    RangeSweep.run_extents center (before ++ some spike :: after)
  have hthreeY : 3 ≤ (readY (before ++ after)).length := by rwa [length_readY]
  rw [readX_append] at hthree hx
  rw [readY_append] at hthreeY hy
  have hX : Within _ _ _ ∧ Within _ _ _ ↔ 3 ≤ (readX before).length ∨ ¬ StandsOut _ _ spike.1 :=
    within_iff hthree hx
  have hY : Within _ _ _ ∧ Within _ _ _ ↔ 3 ≤ (readY before).length ∨ ¬ StandsOut _ _ spike.2 :=
    within_iff hthreeY hy
  rw [length_readY] at hY
  have hreadX : readX (before ++ some spike :: after) =
      readX before ++ spike.1 :: readX after := readX_append ..
  have hreadY : readY (before ++ some spike :: after) =
      readY before ++ spike.2 :: readY after := readY_append ..
  rw [hreadX] at hminX hmaxX
  rw [hreadY] at hminY hmaxY
  rw [readX_append, readY_append, or_and_left, ← hX, ← hY]
  constructor
  · intro h
    rw [← hminX, ← hmaxX, ← hminY, ← hmaxY, ← readX_append, ← readY_append]
    exact ⟨⟨h.minX, h.maxX⟩, h.minY, h.maxY⟩
  · rintro ⟨⟨h₁, h₂⟩, h₃, h₄⟩
    rw [← hminX, ← readX_append] at h₁
    rw [← hmaxX, ← readX_append] at h₂
    rw [← hminY, ← readY_append] at h₃
    rw [← hmaxY, ← readY_append] at h₄
    exact ⟨h₁, h₂, h₃, h₄⟩

/-- A sweep with a spike at its fourth reading. -/
theorem spikeDropped_fourth :
    SpikeDropped quietCenter [some (10, 0), none, some (0, 10), some (-10, 0)] (500, -500)
      [some (0, -10), none] := by
  refine (spikeDropped_iff (500, -500) (by decide) ?_ ?_).mpr (.inl (by decide))
  · intro x hx
    have hreach : x = 10 ∨ x = 0 ∨ x = -10 ∨ x = 0 := by simpa [readX] using hx
    rcases hreach with rfl | rfl | rfl | rfl <;> exact ⟨rfl, by decide +kernel, by decide +kernel⟩
  · intro y hy
    have hreach : y = 0 ∨ y = 10 ∨ y = 0 ∨ y = -10 := by simpa [readY] using hy
    rcases hreach with rfl | rfl | rfl | rfl <;> exact ⟨rfl, by decide +kernel, by decide +kernel⟩

/-- A spike at the first reading is an extent. -/
theorem not_spikeDropped_first :
    ¬ ∀ (center : CenterResult ℚ) (before after : List (Option (ℚ × ℚ))) (spike : ℚ × ℚ),
      3 ≤ (readX (before ++ after)).length → SpikeDropped center before spike after := by
  intro h
  have hmaxX := (h quietCenter [] [some (0, 0), some (0, 0), some (0, 0)] (500, 0)
    (by decide)).maxX
  revert hmaxX
  decide +kernel

end OmegaStick
