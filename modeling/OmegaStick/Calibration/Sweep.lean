import OmegaStick.Calibration.Types

/-!
# The interactive sweep

`center_calibration`, `range_calibration` and `finalize_center_deadzone` of
`omega_calibration.hpp`.  The sensor is a stream: `read i` is the outcome of
the `i`-th call of the injected read function, `none` for a failed read.  One
calibration makes `CENTER_SAMPLES` calls for the center, as many for its noise,
and `RANGE_SAMPLES` for the range.
-/

namespace OmegaStick

open MachineFloat

variable {F : Type*} [MachineFloat F]

def centerSamples : ℕ := 200

def rangeSamples : ℕ := 200

def rangeSectors : ℕ := 32

def minCoveredSectors : ℕ := rangeSectors / 2

def centerPercentile : F := ofRat (99 / 100)

def rangePercentile : F := ofRat (1 / 10)

/-- `static_cast<float>(M_PI)` -/
def pi : F := ofRat (3141592653589793 / 10 ^ 15)

/-- `std::numeric_limits<float>::max()` -/
def floatMax : F := ofRat ((2 ^ 24 - 1) * 2 ^ 104)

/-! ## The median filter -/

/-- Drops isolated one-sample outliers from a stream of readings. -/
structure MedianFilter3 (F : Type*) where
  history : F × F × F
  index : ℕ
  count : ℕ
  deriving DecidableEq, Repr

namespace MedianFilter3

/-- A default-constructed filter. -/
def default : MedianFilter3 F := ⟨(ofRat 0, ofRat 0, ofRat 0), 0, 0⟩

/-- `history_[index_] = value` -/
def store (filter : MedianFilter3 F) (value : F) : F × F × F :=
  match filter.index, filter.history with
  | 0, (_, b, c) => (value, b, c)
  | 1, (a, _, c) => (a, value, c)
  | _, (a, b, _) => (a, b, value)

/-- The first three readings pass through; from then on the median of the last
three comes out. -/
def update (filter : MedianFilter3 F) (value : F) : F × MedianFilter3 F :=
  let history := filter.store value
  let index := (filter.index + 1) % 3
  if filter.count < 3 then
    (value, ⟨history, index, filter.count + 1⟩)
  else
    let (a, b, c) := history
    (fmax (fmin a b) (fmin (fmax a b) c), ⟨history, index, filter.count⟩)

end MedianFilter3

/-! ## Center -/

/-- The outcomes of `count` calls of the read function from call `start` on. -/
def readSamples (read : ℕ → Option (F × F)) (start count : ℕ) : List (Option (F × F)) :=
  (List.range count).map fun i => read (start + i)

/-- The sampling loop shared by every step: failed reads are skipped, the rest
go through one filter for each axis. -/
def filterSamples (samples : List (Option (F × F))) : List (F × F) :=
  go samples .default .default
where
  go : List (Option (F × F)) → MedianFilter3 F → MedianFilter3 F → List (F × F)
    | [], _, _ => []
    | none :: rest, xFilter, yFilter => go rest xFilter yFilter
    | some (x, y) :: rest, xFilter, yFilter =>
        ((xFilter.update x).1, (yFilter.update y).1) ::
          go rest (xFilter.update x).2 (yFilter.update y).2

/-- `values[static_cast<size_t>((values.size() - 1) * percentile)]` -/
def percentile (values : List F) (fraction : F) : F :=
  values.getD (toInt (ofRat (values.length - 1 : ℕ) * fraction)).toNat (ofRat 0)

variable [FloatMath F]

/-- The distance of a point from the origin, as the sweep computes it. -/
def radiusOf (dx dy : F) : F := FloatMath.sqrt (dx * dx + dy * dy)

/-- Measures the resting center and its noise. -/
def centerCalibration (read : ℕ → Option (F × F)) : Except Error (CenterResult F) :=
  let samples := filterSamples (readSamples read 0 centerSamples)
  if samples.isEmpty then .error .noCenterSamples
  else
    let count : F := ofRat samples.length
    let centerX := (samples.foldl (fun sum s => sum + s.1) (ofRat 0)) / count
    let centerY := (samples.foldl (fun sum s => sum + s.2) (ofRat 0)) / count
    let noise := filterSamples (readSamples read centerSamples centerSamples)
    if noise.isEmpty then .error .noCenterNoiseSamples
    else
      let radii := noise.map fun s => radiusOf (s.1 - centerX) (s.2 - centerY)
      .ok { (CenterResult.default : CenterResult F) with
        centerX := centerX
        centerY := centerY
        noiseRadius := percentile (sort radii) centerPercentile }

/-! ## Range -/

/-- The variables of the range sampling loop. -/
structure RangeSweep (F : Type*) where
  minX : F
  maxX : F
  minY : F
  maxY : F
  sectorMaxRadius : List F

/-- The angular sector of a point. -/
def sectorOf (dx dy : F) : ℕ :=
  let angle := FloatMath.atan2 dy dx
  let angle := if flt angle (ofRat 0) then angle + ofRat 2 * pi else angle
  let sector := toInt (angle / (ofRat 2 * pi / ofRat rangeSectors))
  (max 0 (min sector (rangeSectors - 1))).toNat

namespace RangeSweep

def init : RangeSweep F :=
  ⟨floatMax, -floatMax, floatMax, -floatMax, List.replicate rangeSectors (ofRat 0)⟩

/-- One valid sample of the sweep, relative to the center. -/
def sample (sweep : RangeSweep F) (dx dy : F) : RangeSweep F where
  minX := fmin sweep.minX dx
  maxX := fmax sweep.maxX dx
  minY := fmin sweep.minY dy
  maxY := fmax sweep.maxY dy
  sectorMaxRadius :=
    sweep.sectorMaxRadius.modify (sectorOf dx dy) fun radius => fmax radius (radiusOf dx dy)

/-- The sampling loop over the valid samples. -/
def run (center : CenterResult F) (samples : List (F × F)) : RangeSweep F :=
  samples.foldl (fun sweep s => sweep.sample (s.1 - center.centerX) (s.2 - center.centerY))
    RangeSweep.init

/-- The conservative (weakest-axis) radius of a finished sweep. -/
def usableRadius (sweep : RangeSweep F) : F :=
  fmin (fmin (fmin (fabs sweep.maxX) (fabs sweep.minX)) (fabs sweep.maxY)) (fabs sweep.minY)

/-- What a finished sweep accepted by `range_calibration` reports. -/
def result (sweep : RangeSweep F) : RangeResult F :=
  let covered := sweep.sectorMaxRadius.filter fun radius => flt (ofRat 0) radius
  let reliable := percentile (sort covered) rangePercentile
  let ratio := if flt (ofRat 0) sweep.usableRadius then reliable / sweep.usableRadius else ofRat 0
  let normalized := clamp ratio (ofRat 0) (ofRat 1)
  { minX := sweep.minX, maxX := sweep.maxX, minY := sweep.minY, maxY := sweep.maxY
    usableRadius := sweep.usableRadius
    reliableMaxRadius := reliable
    normalizedMaxRadius := normalized
    deadzone := clamp (ofRat 1 - normalized) (ofRat 0) maxRangeDeadzone
    sectorMaxRadius := sweep.sectorMaxRadius }

omit [FloatMath F] in
@[simp] theorem result_usableRadius (sweep : RangeSweep F) :
    sweep.result.usableRadius = sweep.usableRadius := rfl

end RangeSweep

/-- Sweeps the stick through its range.  Besides coverage, a sweep must be
usable: a stick left at rest covers every sector with noise. -/
def rangeCalibration (center : CenterResult F) (samples : List (Option (F × F))) :
    Except Error (RangeResult F) :=
  let valid := filterSamples samples
  if valid.isEmpty then .error .noRangeSamples
  else
    let sweep := RangeSweep.run center valid
    let covered := sweep.sectorMaxRadius.filter fun radius => flt (ofRat 0) radius
    if covered.length < minCoveredSectors then .error .noRangeSamples
    else if !checkUsable center
        { (RangeResult.default : RangeResult F) with usableRadius := sweep.usableRadius }
        (ofRat 0) then
      .error .calibrationUnusable
    else .ok sweep.result

omit [FloatMath F] in
/-- Normalizes the noise radius into a deadzone fraction of the usable radius. -/
def finalizeCenterDeadzone (center : CenterResult F) (range : RangeResult F) : CenterResult F :=
  let deadzone :=
    if flt (ofRat 0) range.usableRadius then
      center.noiseRadius * centerMargin / range.usableRadius
    else ofRat 0
  { center with deadzone := clamp deadzone (ofRat 0) maxCenterDeadzone }

omit [FloatMath F] in
@[simp] theorem finalizeCenterDeadzone_noiseRadius (center : CenterResult F)
    (range : RangeResult F) :
    (finalizeCenterDeadzone center range).noiseRadius = center.noiseRadius := rfl

/-- What `range_calibration` accepts is the result of its sampling loop, and has passed
`check_usable` without tolerance. -/
theorem rangeCalibration_accepted {center : CenterResult F} {samples : List (Option (F × F))}
    {range : RangeResult F} (h : rangeCalibration center samples = .ok range) :
    range = (RangeSweep.run center (filterSamples samples)).result ∧
      checkUsable center range (ofRat 0) = true := by
  simp only [rangeCalibration] at h
  split at h
  · cases h
  split at h
  · cases h
  split at h
  · cases h
  · rename_i husable
    simp only [Bool.not_eq_true', Bool.not_eq_false] at husable
    cases h
    exact ⟨rfl, husable⟩

/-- The calls of the read function a whole calibration makes: center, noise,
then range. -/
def rangeReads (read : ℕ → Option (F × F)) : List (Option (F × F)) :=
  readSamples read (2 * centerSamples) rangeSamples

/-- `center_calibration`, then `range_calibration`, as `EspPorts::run_sweep`
chains them on one sensor, with the center deadzone finalized on success. -/
def sweepCalibration (read : ℕ → Option (F × F)) :
    Except Error (CenterResult F × RangeResult F) := do
  let center ← centerCalibration read
  let range ← rangeCalibration center (rangeReads read)
  return (finalizeCenterDeadzone center range, range)

/-- What a successful sweep hands over has passed `check_usable`. -/
theorem checkUsable_of_sweepCalibration {read : ℕ → Option (F × F)} {center : CenterResult F}
    {range : RangeResult F} (h : sweepCalibration read = .ok (center, range)) :
    checkUsable center range (ofRat 0) = true := by
  unfold sweepCalibration at h
  cases hcenter : centerCalibration read with
  | error e => simp [hcenter, bind, Except.bind] at h
  | ok measured =>
      cases hrange : rangeCalibration measured (rangeReads read) with
      | error e => simp [hcenter, hrange, bind, Except.bind] at h
      | ok swept =>
          simp only [hcenter, hrange, bind, Except.bind, pure, Except.pure, Except.ok.injEq,
            Prod.mk.injEq] at h
          obtain ⟨rfl, rfl⟩ := h
          rw [checkUsable_congr (finalizeCenterDeadzone_noiseRadius measured swept) rfl]
          exact (rangeCalibration_accepted hrange).2

end OmegaStick
