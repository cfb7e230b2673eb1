import OmegaStick.Sensor.Tmag5273

/-!
# The configuration fields are independent

Every setter replaces the bits of one field (`Setter.call_eq`).  The invariant of any run
(`Held`) says of each field that was set that its bits and the driver's copy are what was
set last, and of every other bit that it is the initial one.
-/

namespace OmegaStick

namespace Tmag5273

variable {World E : Type}

/-! ## Fields -/

inductive Field where
  | operatingMode | magneticChannels | xyRange | zRange | conversionAverage | lowNoise
  | angleConversion
  deriving DecidableEq, Repr

namespace Field

def register : Field → BitVec 8
  | operatingMode => DEVICE_CONFIG_2
  | magneticChannels => SENSOR_CONFIG_1
  | xyRange => SENSOR_CONFIG_2
  | zRange => SENSOR_CONFIG_2
  | conversionAverage => DEVICE_CONFIG_1
  | lowNoise => DEVICE_CONFIG_2
  | angleConversion => SENSOR_CONFIG_2

def bits : Field → BitField 8
  | operatingMode => operatingModeBits
  | magneticChannels => magneticChannelsBits
  | xyRange => xyRangeBits
  | zRange => zRangeBits
  | conversionAverage => conversionAverageBits
  | lowNoise => lowNoiseBits
  | angleConversion => angleConversionBits

/-- Fields of one register do not overlap. -/
theorem disjoint {f g : Field} (hne : f ≠ g) (hreg : f.register = g.register) :
    f.bits.mask &&& g.bits.mask = 0#8 := by
  cases f <;> cases g <;> first | exact absurd rfl hne | exact absurd hreg (by decide) | decide

/-- The code of the driver's copy. -/
def copy (f : Field) (d : Tmag5273) : BitVec 8 :=
  match f with
  | operatingMode => d.operatingMode_.code
  | magneticChannels => d.channels_.code
  | xyRange => d.xyRange_.code
  | zRange => d.zRange_.code
  | conversionAverage => d.conversionAverage_.code
  | lowNoise => if d.lowNoise_ then 1 else 0
  | angleConversion => d.angleConversion_.code

end Field

/-! ## Setters -/

inductive Setter where
  | operatingMode (mode : OperatingMode)
  | magneticChannels (channels : MagneticChannels)
  | xyRange (range : MagneticRange)
  | zRange (range : MagneticRange)
  | conversionAverage (average : ConversionAverage)
  | lowNoise (enabled : Bool)
  | angleConversion (conversion : AngleConversion)
  deriving DecidableEq, Repr

namespace Setter

def call (p : BasePeripheral World E) : Setter → Tmag5273 → Option E → World → SetResult World E
  | operatingMode mode => setOperatingMode p mode
  | magneticChannels channels => setMagneticChannels p channels
  | xyRange range => setXyRange p range
  | zRange range => setZRange p range
  | conversionAverage average => setConversionAverage p average
  | lowNoise enabled => setLowNoise p enabled
  | angleConversion conversion => setAngleConversion p conversion

def field : Setter → Field
  | operatingMode _ => .operatingMode
  | magneticChannels _ => .magneticChannels
  | xyRange _ => .xyRange
  | zRange _ => .zRange
  | conversionAverage _ => .conversionAverage
  | lowNoise _ => .lowNoise
  | angleConversion _ => .angleConversion

def code : Setter → BitVec 8
  | operatingMode mode => mode.code
  | magneticChannels channels => channels.code
  | xyRange range => range.code
  | zRange range => range.code
  | conversionAverage average => average.code
  | lowNoise enabled => if enabled then 1 else 0
  | angleConversion conversion => conversion.code

/-- The driver with the setter's value as its copy. -/
def keep : Setter → Tmag5273 → Tmag5273
  | operatingMode mode => fun d => { d with operatingMode_ := mode }
  | magneticChannels channels => fun d => { d with channels_ := channels }
  | xyRange range => fun d => { d with xyRange_ := range }
  | zRange range => fun d => { d with zRange_ := range }
  | conversionAverage average => fun d => { d with conversionAverage_ := average }
  | lowNoise enabled => fun d => { d with lowNoise_ := enabled }
  | angleConversion conversion => fun d => { d with angleConversion_ := conversion }

variable (p : BasePeripheral World E) (setter : Setter)

/-- **Every setter puts its code into its field.** -/
theorem call_eq : setter.call p =
    setRegister p setter.field.register (setter.field.bits.put setter.code) setter.keep := by
  cases setter with
  | lowNoise enabled =>
      -- a bit that is set or cleared is a field of one bit
      have hput : (fun reg : BitVec 8 =>
          if enabled then reg ||| (1#8 <<< 4) else reg &&& ~~~(1#8 <<< 4)) =
            lowNoiseBits.put (if enabled then 1 else 0) := by
        funext reg
        refine BitVec.eq_of_getLsbD_eq fun i hi => ?_
        cases enabled with
        | false =>
            change (reg &&& ~~~(1#8 <<< 4)).getLsbD i =
              ((reg &&& ~~~(1#8 <<< 4)) ||| 0#8).getLsbD i
            rw [BitVec.or_zero]
        | true =>
            change (reg ||| (1#8 <<< 4)).getLsbD i =
              ((reg &&& ~~~(1#8 <<< 4)) ||| (1#8 <<< 4)).getLsbD i
            simp only [BitVec.getLsbD_or, BitVec.getLsbD_and, BitVec.getLsbD_not,
              decide_eq_true hi, Bool.true_and]
            cases (1#8 <<< 4).getLsbD i <;> simp
      exact congrArg (fun change => setRegister p DEVICE_CONFIG_2 change
        fun d => { d with lowNoise_ := enabled }) hput
  | _ => rfl

/-- The code is the field's value, nothing is cut off. -/
theorem code_fits : ((setter.code &&& setter.field.bits.ones) <<< setter.field.bits.shift) >>>
    setter.field.bits.shift = setter.code := by
  cases setter with
  | operatingMode mode => cases mode <;> decide
  | magneticChannels channels => cases channels <;> decide
  | xyRange range => cases range <;> decide
  | zRange range => cases range <;> decide
  | conversionAverage average => cases average <;> decide
  | lowNoise enabled => cases enabled <;> decide
  | angleConversion conversion => cases conversion <;> decide

theorem copy_keep (d : Tmag5273) : setter.field.copy (setter.keep d) = setter.code := by
  cases setter <;> rfl

theorem copy_keep_of_ne {f : Field} (h : f ≠ setter.field) (d : Tmag5273) :
    f.copy (setter.keep d) = f.copy d := by
  cases setter <;> cases f <;> first | exact absurd rfl h | rfl

end Setter

/-! ## What was set -/

/-- The values last set successfully. -/
structure Settings where
  operatingMode : Option OperatingMode := none
  magneticChannels : Option MagneticChannels := none
  xyRange : Option MagneticRange := none
  zRange : Option MagneticRange := none
  conversionAverage : Option ConversionAverage := none
  lowNoise : Option Bool := none
  angleConversion : Option AngleConversion := none
  deriving DecidableEq, Repr

namespace Settings

def put (s : Settings) : Setter → Settings
  | .operatingMode mode => { s with operatingMode := some mode }
  | .magneticChannels channels => { s with magneticChannels := some channels }
  | .xyRange range => { s with xyRange := some range }
  | .zRange range => { s with zRange := some range }
  | .conversionAverage average => { s with conversionAverage := some average }
  | .lowNoise enabled => { s with lowNoise := some enabled }
  | .angleConversion conversion => { s with angleConversion := some conversion }

/-- The code last set in a field. -/
def code (s : Settings) : Field → Option (BitVec 8)
  | .operatingMode => s.operatingMode.map OperatingMode.code
  | .magneticChannels => s.magneticChannels.map MagneticChannels.code
  | .xyRange => s.xyRange.map MagneticRange.code
  | .zRange => s.zRange.map MagneticRange.code
  | .conversionAverage => s.conversionAverage.map ConversionAverage.code
  | .lowNoise => s.lowNoise.map fun enabled => if enabled then 1 else 0
  | .angleConversion => s.angleConversion.map AngleConversion.code

theorem code_put (s : Settings) (setter : Setter) :
    (s.put setter).code setter.field = some setter.code := by
  cases setter <;> rfl

theorem code_put_of_ne (s : Settings) {setter : Setter} {f : Field} (h : f ≠ setter.field) :
    (s.put setter).code f = s.code f := by
  cases setter <;> cases f <;> first | exact absurd rfl h | rfl

end Settings

/-! ## Runs -/

/-- A call of a setter, or a read by a getter or for a reading; each with the error code it
is handed. -/
inductive Call (E : Type) where
  | set (setter : Setter) (ec : Option E)
  | readU8 (reg : BitVec 8) (ec : Option E)
  | readMany (reg : BitVec 8) (length : ℕ) (ec : Option E)

/-- The driver on its bus, and what was set so far. -/
structure Sensor (World : Type) where
  driver : Tmag5273
  world : World
  settings : Settings := {}

variable (p : BasePeripheral World E)

def Sensor.call (s : Sensor World) : Call E → Sensor World
  | .set setter ec =>
      let result := setter.call p s.driver ec s.world
      ⟨result.driver, result.world, if result.ok then s.settings.put setter else s.settings⟩
  | .readU8 reg ec => { s with world := (p.readU8 reg ec s.world).2.2 }
  | .readMany reg length ec => { s with world := (p.readMany reg length ec s.world).2.2 }

def Sensor.run (s : Sensor World) (calls : List (Call E)) : Sensor World :=
  calls.foldl (Sensor.call p) s

/-! ## One call -/

theorem setRegister_eq (reg : BitVec 8) (change : BitVec 8 → BitVec 8) (keep : Tmag5273 → Tmag5273)
    (d : Tmag5273) (ec : Option E) (w : World) :
    setRegister p reg change keep d ec w =
      let read := p.readU8 reg ec w
      let write := p.writeU8 reg (change read.1) read.2.1 read.2.2
      if read.2.1.isSome then ⟨false, read.2.1, d, read.2.2⟩
      else ⟨write.1.isNone, write.1, if write.1.isNone then keep d else d, write.2⟩ := rfl

section Lawful

variable {p} {registers : World → BitVec 8 → BitVec 8} (hp : p.Lawful registers)

include hp

/-- What a setter does: nothing, or its code in its field and its value as the copy. -/
theorem call_cases (setter : Setter) (d : Tmag5273) (ec : Option E) (w : World) :
    let r := setter.call p d ec w
    (r.ok = false ∧ r.driver = d ∧ registers r.world = registers w) ∨
      (r.ok = true ∧ r.driver = setter.keep d ∧
        registers r.world = Function.update (registers w) setter.field.register
          (setter.field.bits.put setter.code (registers w setter.field.register))) := by
  have hregisters := hp.registers_readU8 setter.field.register ec w
  have hvalue := hp.readU8_eq setter.field.register ec w
  rw [setter.call_eq p, setRegister_eq]
  dsimp only
  by_cases hread : (p.readU8 setter.field.register ec w).2.1 = none
  swap
  · rw [if_pos (Option.isSome_iff_ne_none.mpr hread)]
    exact .inl ⟨rfl, rfl, hregisters⟩
  rw [if_neg (by rw [hread]; exact Bool.false_ne_true), hvalue hread]
  have hdone := hp.registers_writeU8 setter.field.register
    (setter.field.bits.put setter.code (registers w setter.field.register))
    (p.readU8 setter.field.register ec w).2.1 (p.readU8 setter.field.register ec w).2.2
  have hfailed := hp.registers_writeU8_of_failed setter.field.register
    (setter.field.bits.put setter.code (registers w setter.field.register))
    (p.readU8 setter.field.register ec w).2.1 (p.readU8 setter.field.register ec w).2.2
  rw [hregisters] at hdone hfailed
  by_cases hwrite : (p.writeU8 setter.field.register
      (setter.field.bits.put setter.code (registers w setter.field.register))
      (p.readU8 setter.field.register ec w).2.1 (p.readU8 setter.field.register ec w).2.2).1 = none
  · have hok := Option.isNone_iff_eq_none.mpr hwrite
    exact .inr ⟨hok, if_pos hok, hdone hwrite⟩
  · have hok := mt Option.isNone_iff_eq_none.mp hwrite
    exact .inl ⟨Bool.eq_false_iff.mpr hok, if_neg hok, hfailed hwrite⟩

/-! ## The invariant -/

/-- What holds after any calls from registers `start`. -/
structure Held (registers : World → BitVec 8 → BitVec 8) (start : BitVec 8 → BitVec 8)
    (s : Sensor World) : Prop where
  field : ∀ f code, s.settings.code f = some code →
    f.bits.get (registers s.world f.register) = code
  copy : ∀ f code, s.settings.code f = some code → f.copy s.driver = code
  outside : ∀ reg i, (∀ f : Field, (s.settings.code f).isSome = true → f.register = reg →
    f.bits.mask.getLsbD i = false) → (registers s.world reg).getLsbD i = (start reg).getLsbD i

theorem held_set {start : BitVec 8 → BitVec 8} {s : Sensor World} (h : Held registers start s)
    (setter : Setter) (ec : Option E) : Held registers start (s.call p (.set setter ec)) := by
  have hcases := call_cases hp setter s.driver ec s.world
  unfold Sensor.call
  dsimp only at hcases ⊢
  rcases hcases with ⟨hok, hdriver, hregisters⟩ | ⟨hok, hdriver, hregisters⟩
  · -- nothing changed
    rw [hok, hdriver, if_neg Bool.false_ne_true]
    refine ⟨fun f code hf => ?_, h.copy, fun reg i hfree => ?_⟩
    · rw [hregisters]
      exact h.field f code hf
    · rw [hregisters]
      exact h.outside reg i hfree
  · rw [hok, hdriver, if_pos rfl]
    refine ⟨fun f code hf => ?_, fun f code hf => ?_, fun reg i hfree => ?_⟩
    · dsimp only at hf ⊢
      rw [hregisters]
      by_cases hown : f = setter.field
      · subst hown
        rw [Settings.code_put] at hf
        rw [Function.update_self, ← Option.some.inj hf]
        exact setter.field.bits.get_put _ _ setter.code_fits
      · rw [Settings.code_put_of_ne _ hown] at hf
        by_cases hreg : f.register = setter.field.register
        · have hdisjoint := Field.disjoint (Ne.symm hown) hreg.symm
          rw [hreg, Function.update_self, BitField.get_put_of_disjoint _ _ hdisjoint, ← hreg]
          exact h.field f code hf
        · rw [Function.update_of_ne hreg]
          exact h.field f code hf
    · dsimp only at hf ⊢
      by_cases hown : f = setter.field
      · subst hown
        rw [Settings.code_put] at hf
        rw [setter.copy_keep]
        exact Option.some.inj hf
      · rw [Settings.code_put_of_ne _ hown] at hf
        rw [setter.copy_keep_of_ne hown]
        exact h.copy f code hf
    · dsimp only at hfree ⊢
      have hbefore : (registers s.world reg).getLsbD i = (start reg).getLsbD i := by
        refine h.outside reg i fun f hf hreg => hfree f ?_ hreg
        by_cases hown : f = setter.field
        · rw [hown, Settings.code_put]
          rfl
        · rwa [Settings.code_put_of_ne _ hown]
      rw [hregisters, ← hbefore]
      by_cases hreg : reg = setter.field.register
      · subst hreg
        have hbit := hfree setter.field (by rw [Settings.code_put]; rfl) rfl
        rw [Function.update_self, BitField.getLsbD_put _ _ _ hbit]
      · rw [Function.update_of_ne hreg]

theorem held_call {start : BitVec 8 → BitVec 8} {s : Sensor World} (h : Held registers start s)
    (c : Call E) : Held registers start (s.call p c) := by
  cases c with
  | set setter ec => exact held_set hp h setter ec
  | readU8 reg ec =>
      have hsame := hp.registers_readU8 reg ec s.world
      refine ⟨fun f code hf => ?_, h.copy, fun reg' i hfree => ?_⟩
      · exact (congrArg (fun r => f.bits.get (r f.register)) hsame).trans (h.field f code hf)
      · exact (congrArg (fun r => (r reg').getLsbD i) hsame).trans (h.outside reg' i hfree)
  | readMany reg length ec =>
      have hsame := hp.registers_readMany reg length ec s.world
      refine ⟨fun f code hf => ?_, h.copy, fun reg' i hfree => ?_⟩
      · exact (congrArg (fun r => f.bits.get (r f.register)) hsame).trans (h.field f code hf)
      · exact (congrArg (fun r => (r reg').getLsbD i) hsame).trans (h.outside reg' i hfree)

omit hp in
theorem held_start (d : Tmag5273) (w : World) : Held registers (registers w) ⟨d, w, {}⟩ where
  field f code h := by cases f <;> cases h
  copy f code h := by cases f <;> cases h
  outside _ _ _ := rfl

theorem held_run {start : BitVec 8 → BitVec 8} {s : Sensor World} (h : Held registers start s)
    (calls : List (Call E)) : Held registers start (s.run p calls) := by
  induction calls generalizing s with
  | nil => exact h
  | cons c rest ih => exact ih (held_call hp h c)

/-! ## What the driver answers -/

omit hp in
/-- A getter whose read succeeds decodes its register. -/
theorem getRegister_eq (hp : p.Lawful registers) {V : Type} {reg : BitVec 8}
    {decode : BitVec 8 → V} {failed : V} {ec : Option E} {w : World}
    (h : (getRegister p reg decode failed ec w).2.1 = none) :
    (getRegister p reg decode failed ec w).1 = decode (registers w reg) := by
  change (p.readU8 reg ec w).2.1 = none at h
  change (if (p.readU8 reg ec w).2.1.isSome then failed else decode (p.readU8 reg ec w).1) = _
  rw [h, if_neg (by simp), hp.readU8_eq reg ec w h]

end Lawful

/-- **The fields are independent** in a state reached from registers `start`. -/
structure FieldsIndependent (F : Type) [MachineFloat F] (p : BasePeripheral World E)
    (registers : World → BitVec 8 → BitVec 8) (start : BitVec 8 → BitVec 8) (s : Sensor World) :
    Prop where
  /-- A getter whose read succeeds answers what was last set in its field. -/
  operatingMode : ∀ mode ec, s.settings.operatingMode = some mode →
    (operatingMode p ec s.world).2.1 = none → (operatingMode p ec s.world).1 = some mode
  magneticChannels : ∀ channels ec, s.settings.magneticChannels = some channels →
    (magneticChannels p ec s.world).2.1 = none → (magneticChannels p ec s.world).1 = some channels
  xyRange : ∀ range ec, s.settings.xyRange = some range →
    (xyRange p ec s.world).2.1 = none → (xyRange p ec s.world).1 = some range
  zRange : ∀ range ec, s.settings.zRange = some range →
    (zRange p ec s.world).2.1 = none → (zRange p ec s.world).1 = some range
  conversionAverage : ∀ average ec, s.settings.conversionAverage = some average →
    (conversionAverage p ec s.world).2.1 = none → (conversionAverage p ec s.world).1 = some average
  lowNoise : ∀ enabled ec, s.settings.lowNoise = some enabled →
    (lowNoise p ec s.world).2.1 = none → (lowNoise p ec s.world).1 = enabled
  angleConversion : ∀ conversion ec, s.settings.angleConversion = some conversion →
    (angleConversion p ec s.world).2.1 = none →
      (angleConversion p ec s.world).1 = some conversion
  /-- A bit of any register outside the fields that were set is the initial one. -/
  outside : ∀ reg i, (∀ f : Field, (s.settings.code f).isSome = true → f.register = reg →
    f.bits.mask.getLsbD i = false) → (registers s.world reg).getLsbD i = (start reg).getLsbD i
  /-- A setter that fails changes nothing. -/
  failed : ∀ (setter : Setter) ec, (setter.call p s.driver ec s.world).ok = false →
    (setter.call p s.driver ec s.world).driver = s.driver ∧
      registers (setter.call p s.driver ec s.world).world = registers s.world
  /-- Readings are converted with the range the register holds. -/
  converted_xy : s.settings.xyRange.isSome = true → ∃ range,
    MagneticRange.ofCode (xyRangeBits.get (registers s.world SENSOR_CONFIG_2)) = some range ∧
    s.driver.xyRange_ = range ∧
    (∀ ec, (readRaw p ec s.world).2.1 = none →
      (readMagnetic (F := F) p s.driver ec s.world).1.x =
        convertRawToMT s.driver.variant_ (readRaw p ec s.world).1.x range ∧
      (readMagnetic (F := F) p s.driver ec s.world).1.y =
        convertRawToMT s.driver.variant_ (readRaw p ec s.world).1.y range) ∧
    (∀ ec, readX (F := F) p s.driver ec s.world =
        readAxis p X_MSB_RESULT s.driver.variant_ range ec s.world ∧
      readY (F := F) p s.driver ec s.world =
        readAxis p Y_MSB_RESULT s.driver.variant_ range ec s.world)
  converted_z : s.settings.zRange.isSome = true → ∃ range,
    MagneticRange.ofCode (zRangeBits.get (registers s.world SENSOR_CONFIG_2)) = some range ∧
    s.driver.zRange_ = range ∧
    (∀ ec, (readRaw p ec s.world).2.1 = none →
      (readMagnetic (F := F) p s.driver ec s.world).1.z =
        convertRawToMT s.driver.variant_ (readRaw p ec s.world).1.z range) ∧
    (∀ ec, readZ (F := F) p s.driver ec s.world =
        readAxis p Z_MSB_RESULT s.driver.variant_ range ec s.world)

theorem OperatingMode.ofCode_code (mode : OperatingMode) : ofCode mode.code = some mode := by
  cases mode <;> rfl

theorem MagneticChannels.ofCode_code (channels : MagneticChannels) :
    ofCode channels.code = some channels := by
  cases channels <;> rfl

theorem MagneticRange.ofCode_code (range : MagneticRange) : ofCode range.code = some range := by
  cases range <;> rfl

theorem MagneticRange.code_injective {a b : MagneticRange} (h : a.code = b.code) : a = b :=
  Option.some.inj (by rw [← a.ofCode_code, ← b.ofCode_code, h])

theorem ConversionAverage.ofCode_code (average : ConversionAverage) :
    ofCode average.code = some average := by
  cases average <;> rfl

theorem AngleConversion.ofCode_code (conversion : AngleConversion) :
    ofCode conversion.code = some conversion := by
  cases conversion <;> rfl

/-- The getter's test of the bit is the field's value. -/
theorem lowNoiseBits_get : ∀ reg : BitVec 8,
    lowNoiseBits.get reg = if decide (reg &&& (1#8 <<< 4) ≠ 0) then 1 else 0 := by
  decide +kernel

theorem readMagnetic_eq {F : Type} [MachineFloat F] {p : BasePeripheral World E} {d : Tmag5273}
    {ec : Option E} {w : World} (h : (readRaw p ec w).2.1 = none) :
    (readMagnetic (F := F) p d ec w).1 =
      ⟨convertRawToMT d.variant_ (readRaw p ec w).1.x d.xyRange_,
        convertRawToMT d.variant_ (readRaw p ec w).1.y d.xyRange_,
        convertRawToMT d.variant_ (readRaw p ec w).1.z d.zRange_,
        (readRaw p ec w).1.conversion_count⟩ := by
  have hread : readRaw p ec w = ((readRaw p ec w).1, none, (readRaw p ec w).2.2) := by
    rw [← h]
  unfold readMagnetic
  rw [hread]
  rfl

/-- **The fields are independent** after any calls, on any bus whose accesses may fail. -/
theorem fieldsIndependent (F : Type) [MachineFloat F] {p : BasePeripheral World E}
    {registers : World → BitVec 8 → BitVec 8} (hp : p.Lawful registers) (d : Tmag5273) (w : World)
    (calls : List (Call E)) :
    FieldsIndependent F p registers (registers w) (Sensor.run p ⟨d, w, {}⟩ calls) := by
  have hstart : Held registers (registers w) ⟨d, w, {}⟩ := held_start d w
  have hheld := held_run hp hstart calls
  set s := Sensor.run p ⟨d, w, {}⟩ calls
  -- what the register holds in a field, where the field was set
  have hget : ∀ (f : Field) code, s.settings.code f = some code →
      f.bits.get (registers s.world f.register) = code := hheld.field
  refine ⟨fun mode ec hset hok => ?_, fun channels ec hset hok => ?_, fun range ec hset hok => ?_,
    fun range ec hset hok => ?_, fun average ec hset hok => ?_, fun enabled ec hset hok => ?_,
    fun conversion ec hset hok => ?_, hheld.outside, fun setter ec hok => ?_, fun hset => ?_,
    fun hset => ?_⟩
  · have hcode := hget .operatingMode mode.code (congrArg (Option.map OperatingMode.code) hset)
    exact (getRegister_eq hp hok).trans
      ((congrArg OperatingMode.ofCode hcode).trans mode.ofCode_code)
  · have hcode := hget .magneticChannels channels.code
      (congrArg (Option.map MagneticChannels.code) hset)
    exact (getRegister_eq hp hok).trans
      ((congrArg MagneticChannels.ofCode hcode).trans channels.ofCode_code)
  · have hcode := hget .xyRange range.code (congrArg (Option.map MagneticRange.code) hset)
    exact (getRegister_eq hp hok).trans
      ((congrArg MagneticRange.ofCode hcode).trans range.ofCode_code)
  · have hcode := hget .zRange range.code (congrArg (Option.map MagneticRange.code) hset)
    exact (getRegister_eq hp hok).trans
      ((congrArg MagneticRange.ofCode hcode).trans range.ofCode_code)
  · have hcode := hget .conversionAverage average.code
      (congrArg (Option.map ConversionAverage.code) hset)
    exact (getRegister_eq hp hok).trans
      ((congrArg ConversionAverage.ofCode hcode).trans average.ofCode_code)
  · have hcode := hget .lowNoise (if enabled then 1 else 0)
      (congrArg (Option.map fun enabled : Bool => if enabled then (1 : BitVec 8) else 0) hset)
    refine (getRegister_eq hp hok).trans ?_
    have hbit := (lowNoiseBits_get (registers s.world DEVICE_CONFIG_2)).symm.trans hcode
    cases enabled with
    | false =>
        by_contra hne
        rw [if_pos (Bool.eq_true_of_not_eq_false hne)] at hbit
        exact absurd hbit (by decide)
    | true =>
        by_contra hne
        rw [if_neg hne] at hbit
        exact absurd hbit (by decide)
  · have hcode := hget .angleConversion conversion.code
      (congrArg (Option.map AngleConversion.code) hset)
    exact (getRegister_eq hp hok).trans
      ((congrArg AngleConversion.ofCode hcode).trans conversion.ofCode_code)
  · rcases call_cases hp setter s.driver ec s.world with ⟨-, hsame⟩ | ⟨htrue, -⟩
    · exact hsame
    · rw [hok] at htrue
      cases htrue
  · obtain ⟨range, hrange⟩ := Option.isSome_iff_exists.mp hset
    have hfield := congrArg (Option.map MagneticRange.code) hrange
    have hcopy : s.driver.xyRange_ = range :=
      MagneticRange.code_injective (hheld.copy .xyRange range.code hfield)
    refine ⟨range, ?_, hcopy, fun ec hok => ?_, fun ec => ?_⟩
    · exact (congrArg MagneticRange.ofCode (hget .xyRange range.code hfield)).trans
        range.ofCode_code
    · rw [readMagnetic_eq hok, hcopy]
      exact ⟨rfl, rfl⟩
    · rw [readX, readY, hcopy]
      exact ⟨rfl, rfl⟩
  · obtain ⟨range, hrange⟩ := Option.isSome_iff_exists.mp hset
    have hfield := congrArg (Option.map MagneticRange.code) hrange
    have hcopy : s.driver.zRange_ = range :=
      MagneticRange.code_injective (hheld.copy .zRange range.code hfield)
    refine ⟨range, ?_, hcopy, fun ec hok => ?_, fun ec => ?_⟩
    · exact (congrArg MagneticRange.ofCode (hget .zRange range.code hfield)).trans
        range.ofCode_code
    · rw [readMagnetic_eq hok, hcopy]
    · rw [readZ, hcopy]

/-! ## A bus with failures -/

/-- A register file, and which of the next accesses fail. -/
abbrev FakeWorld := (BitVec 8 → BitVec 8) × List Bool

/-- A bus that fails as scheduled. -/
def fakeBus : BasePeripheral FakeWorld Unit where
  readU8 reg _ w :=
    if w.2.headD false then (0, some (), w.1, w.2.tail) else (w.1 reg, none, w.1, w.2.tail)
  readMany reg length _ w :=
    if w.2.headD false then ([], some (), w.1, w.2.tail)
    else ((List.range length).map fun i => w.1 (reg + BitVec.ofNat 8 i), none, w.1, w.2.tail)
  writeU8 reg value _ w :=
    if w.2.headD false then (some (), w.1, w.2.tail)
    else (none, Function.update w.1 reg value, w.2.tail)

theorem fakeBus_lawful : fakeBus.Lawful (Prod.fst : FakeWorld → _) where
  registers_readU8 reg ec w := by
    unfold fakeBus
    dsimp only
    split_ifs <;> rfl
  readU8_eq reg ec w h := by
    unfold fakeBus at h ⊢
    dsimp only at h ⊢
    split_ifs at h ⊢
    rfl
  registers_readMany reg length ec w := by
    unfold fakeBus
    dsimp only
    split_ifs <;> rfl
  registers_writeU8 reg value ec w h := by
    unfold fakeBus at h ⊢
    dsimp only at h ⊢
    split_ifs at h ⊢
    rfl
  registers_writeU8_of_failed reg value ec w h := by
    unfold fakeBus at h ⊢
    dsimp only at h ⊢
    split_ifs at h ⊢
    · rfl
    · exact absurd rfl h

/-- Three ranges set on an erased part; the write of the second fails. -/
theorem fieldsIndependent_failedWrite :
    let d : Tmag5273 := ⟨.xyz, .high, .high, .a2, .continuous, .avg1, false, .off⟩
    let w : FakeWorld := (fun _ => 0xFF, [false, false, false, true])
    FieldsIndependent ℚ fakeBus Prod.fst (fun _ => 0xFF)
      (Sensor.run fakeBus ⟨d, w, {}⟩ [.set (.xyRange .low) none, .set (.zRange .low) none,
        .set (.angleConversion .angleXy) none]) :=
  fieldsIndependent ℚ fakeBus_lawful ⟨.xyz, .high, .high, .a2, .continuous, .avg1, false, .off⟩
    (fun _ => 0xFF, [false, false, false, true]) _

end Tmag5273

end OmegaStick
