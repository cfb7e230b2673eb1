import OmegaStick.Library.BitField
import OmegaStick.Library.MachineFloat

/-!
# The driver of the TMAG5273

`tmag5273.hpp`: the setters and getters of the configuration registers and the conversion of
readings.  Registers are read and written through `BasePeripheral`, which is not part of this
repository; it is a parameter.
-/

namespace OmegaStick

/-! ## The bus -/

/-- The register access the driver is given; `none` is an error code that is not set. -/
structure BasePeripheral (World E : Type) where
  readU8 : BitVec 8 → Option E → World → BitVec 8 × Option E × World
  readMany : BitVec 8 → ℕ → Option E → World → List (BitVec 8) × Option E × World
  writeU8 : BitVec 8 → BitVec 8 → Option E → World → Option E × World

/-- Any access may fail.  A read that does not gives the register; a write that does not
sets it, and one that does leaves it as it was. -/
structure BasePeripheral.Lawful {World E : Type} (p : BasePeripheral World E)
    (registers : World → BitVec 8 → BitVec 8) : Prop where
  registers_readU8 (reg : BitVec 8) (ec : Option E) (w : World) :
    registers (p.readU8 reg ec w).2.2 = registers w
  readU8_eq (reg : BitVec 8) (ec : Option E) (w : World) :
    (p.readU8 reg ec w).2.1 = none → (p.readU8 reg ec w).1 = registers w reg
  registers_readMany (reg : BitVec 8) (length : ℕ) (ec : Option E) (w : World) :
    registers (p.readMany reg length ec w).2.2 = registers w
  registers_writeU8 (reg value : BitVec 8) (ec : Option E) (w : World) :
    (p.writeU8 reg value ec w).1 = none →
      registers (p.writeU8 reg value ec w).2 = Function.update (registers w) reg value
  registers_writeU8_of_failed (reg value : BitVec 8) (ec : Option E) (w : World) :
    (p.writeU8 reg value ec w).1 ≠ none → registers (p.writeU8 reg value ec w).2 = registers w

namespace Tmag5273

/-! ## Registers and their values -/

def DEVICE_CONFIG_1 : BitVec 8 := 0x00

def DEVICE_CONFIG_2 : BitVec 8 := 0x01

def SENSOR_CONFIG_1 : BitVec 8 := 0x02

def SENSOR_CONFIG_2 : BitVec 8 := 0x03

def X_MSB_RESULT : BitVec 8 := 0x12

def Y_MSB_RESULT : BitVec 8 := 0x14

def Z_MSB_RESULT : BitVec 8 := 0x16

inductive OperatingMode where
  | standby | sleep | continuous | wakeSleep
  deriving DecidableEq, Repr

inductive MagneticChannels where
  | off | x | y | xy | z | zx | yz | xyz | xyx | yxy | yzy | xzx
  deriving DecidableEq, Repr

inductive MagneticRange where
  | low | high
  deriving DecidableEq, Repr

inductive Variant where
  | a1 | a2
  deriving DecidableEq, Repr

inductive AngleConversion where
  | off | angleXy | angleYz | angleXz
  deriving DecidableEq, Repr

inductive ConversionAverage where
  | avg1 | avg2 | avg4 | avg8 | avg16 | avg32
  deriving DecidableEq, Repr

/-! ### The underlying bytes

`static_cast` of an enumeration to its byte, and of a byte to the enumeration: `none` stands
for a byte without a name. -/

def OperatingMode.code : OperatingMode → BitVec 8
  | .standby => 0x00
  | .sleep => 0x01
  | .continuous => 0x02
  | .wakeSleep => 0x03

def OperatingMode.ofCode (code : BitVec 8) : Option OperatingMode :=
  [standby, sleep, continuous, wakeSleep].find? fun mode => mode.code = code

def MagneticChannels.code : MagneticChannels → BitVec 8
  | .off => 0x00
  | .x => 0x01
  | .y => 0x02
  | .xy => 0x03
  | .z => 0x04
  | .zx => 0x05
  | .yz => 0x06
  | .xyz => 0x07
  | .xyx => 0x08
  | .yxy => 0x09
  | .yzy => 0x0A
  | .xzx => 0x0B

def MagneticChannels.ofCode (code : BitVec 8) : Option MagneticChannels :=
  [off, x, y, xy, z, zx, yz, xyz, xyx, yxy, yzy, xzx].find? fun channels => channels.code = code

def MagneticRange.code : MagneticRange → BitVec 8
  | .low => 0
  | .high => 1

def MagneticRange.ofCode (code : BitVec 8) : Option MagneticRange :=
  [low, high].find? fun range => range.code = code

def AngleConversion.code : AngleConversion → BitVec 8
  | .off => 0x00
  | .angleXy => 0x01
  | .angleYz => 0x02
  | .angleXz => 0x03

def AngleConversion.ofCode (code : BitVec 8) : Option AngleConversion :=
  [off, angleXy, angleYz, angleXz].find? fun conversion => conversion.code = code

def ConversionAverage.code : ConversionAverage → BitVec 8
  | .avg1 => 0x00
  | .avg2 => 0x01
  | .avg4 => 0x02
  | .avg8 => 0x03
  | .avg16 => 0x04
  | .avg32 => 0x05

def ConversionAverage.ofCode (code : BitVec 8) : Option ConversionAverage :=
  [avg1, avg2, avg4, avg8, avg16, avg32].find? fun average => average.code = code

/-! ### The fields -/

/-- `OPERATING_MODE`, bits 1:0 of `DEVICE_CONFIG_2`. -/
def operatingModeBits : BitField 8 := ⟨0, 0x03, by decide⟩

/-- `MAG_CH_EN`, bits 7:4 of `SENSOR_CONFIG_1`. -/
def magneticChannelsBits : BitField 8 := ⟨4, 0x0F, by decide⟩

/-- `X_Y_RANGE`, bit 1 of `SENSOR_CONFIG_2`. -/
def xyRangeBits : BitField 8 := ⟨1, 0x01, by decide⟩

/-- `Z_RANGE`, bit 0 of `SENSOR_CONFIG_2`. -/
def zRangeBits : BitField 8 := ⟨0, 0x01, by decide⟩

/-- `CONV_AVG`, bits 6:4 of `DEVICE_CONFIG_1`. -/
def conversionAverageBits : BitField 8 := ⟨4, 0x07, by decide⟩

/-- `LP_LN`, bit 4 of `DEVICE_CONFIG_2`. -/
def lowNoiseBits : BitField 8 := ⟨4, 0x01, by decide⟩

/-- `ANGLE_EN`, bits 3:2 of `SENSOR_CONFIG_2`. -/
def angleConversionBits : BitField 8 := ⟨2, 0x03, by decide⟩

end Tmag5273

/-! ## The driver -/

open Tmag5273

/-- The driver's copies of what it set, and the part's variant. -/
structure Tmag5273 where
  channels_ : MagneticChannels
  xyRange_ : MagneticRange
  zRange_ : MagneticRange
  variant_ : Variant
  operatingMode_ : OperatingMode
  conversionAverage_ : ConversionAverage
  lowNoise_ : Bool
  angleConversion_ : AngleConversion
  deriving DecidableEq, Repr

namespace Tmag5273

variable {World E : Type}

/-- What a setter leaves. -/
structure SetResult (World E : Type) where
  ok : Bool
  ec : Option E
  driver : Tmag5273
  world : World

section Setters

variable (p : BasePeripheral World E)

/-- The course of every setter: the register is read, changed and written back, and the copy
follows a write that went well. -/
def setRegister (reg : BitVec 8) (change : BitVec 8 → BitVec 8) (keep : Tmag5273 → Tmag5273)
    (d : Tmag5273) (ec : Option E) (w : World) : SetResult World E :=
  let (value, ec, w) := p.readU8 reg ec w
  if ec.isSome then ⟨false, ec, d, w⟩
  else
    let (ec, w) := p.writeU8 reg (change value) ec w
    ⟨ec.isNone, ec, if ec.isNone then keep d else d, w⟩

def setOperatingMode (mode : OperatingMode) :=
  setRegister p DEVICE_CONFIG_2 (operatingModeBits.put mode.code)
    fun d => { d with operatingMode_ := mode }

def setMagneticChannels (channels : MagneticChannels) :=
  setRegister p SENSOR_CONFIG_1 (magneticChannelsBits.put channels.code)
    fun d => { d with channels_ := channels }

def setXyRange (range : MagneticRange) :=
  setRegister p SENSOR_CONFIG_2 (xyRangeBits.put range.code) fun d => { d with xyRange_ := range }

def setZRange (range : MagneticRange) :=
  setRegister p SENSOR_CONFIG_2 (zRangeBits.put range.code) fun d => { d with zRange_ := range }

def setConversionAverage (average : ConversionAverage) :=
  setRegister p DEVICE_CONFIG_1 (conversionAverageBits.put average.code)
    fun d => { d with conversionAverage_ := average }

/-- The bit is set or cleared without a mask of its own. -/
def setLowNoise (enabled : Bool) :=
  setRegister p DEVICE_CONFIG_2
    (fun reg => if enabled then reg ||| (1#8 <<< 4) else reg &&& ~~~(1#8 <<< 4))
    fun d => { d with lowNoise_ := enabled }

def setAngleConversion (conversion : AngleConversion) :=
  setRegister p SENSOR_CONFIG_2 (angleConversionBits.put conversion.code)
    fun d => { d with angleConversion_ := conversion }

end Setters

section Getters

variable (p : BasePeripheral World E)

/-- The course of every getter; `failed` is its answer to a read that failed. -/
def getRegister {V : Type} (reg : BitVec 8) (decode : BitVec 8 → V) (failed : V) (ec : Option E)
    (w : World) : V × Option E × World :=
  let (value, ec, w) := p.readU8 reg ec w
  (if ec.isSome then failed else decode value, ec, w)

def operatingMode :=
  getRegister p DEVICE_CONFIG_2 (fun reg => OperatingMode.ofCode (operatingModeBits.get reg))
    (some .standby)

def magneticChannels :=
  getRegister p SENSOR_CONFIG_1 (fun reg => MagneticChannels.ofCode (magneticChannelsBits.get reg))
    (some .off)

def xyRange :=
  getRegister p SENSOR_CONFIG_2 (fun reg => MagneticRange.ofCode (xyRangeBits.get reg)) (some .high)

def zRange :=
  getRegister p SENSOR_CONFIG_2 (fun reg => MagneticRange.ofCode (zRangeBits.get reg)) (some .high)

def conversionAverage :=
  getRegister p DEVICE_CONFIG_1
    (fun reg => ConversionAverage.ofCode (conversionAverageBits.get reg)) (some .avg1)

def lowNoise := getRegister p DEVICE_CONFIG_2 (fun reg => decide (reg &&& (1#8 <<< 4) ≠ 0)) false

def angleConversion :=
  getRegister p SENSOR_CONFIG_2 (fun reg => AngleConversion.ofCode (angleConversionBits.get reg))
    (some .off)

end Getters

/-! ## Readings -/

section Readings

variable {F : Type} [MachineFloat F]

open MachineFloat (ofRat)

/-- `full_scale_mT` -/
def fullScaleMT : Variant → MagneticRange → F
  | .a1, .low => ofRat 40
  | .a1, .high => ofRat 80
  | .a2, .low => ofRat 133
  | .a2, .high => ofRat 266

/-- `convert_raw_to_mT` -/
def convertRawToMT (variant : Variant) (raw : BitVec 16) (range : MagneticRange) : F :=
  ofRat raw.toInt / ofRat 32768 * fullScaleMT variant range

structure RawMagneticData where
  x : BitVec 16 := 0
  y : BitVec 16 := 0
  z : BitVec 16 := 0
  conversion_count : BitVec 8 := 0
  deriving DecidableEq, Repr

structure MagneticData (F : Type) where
  x : F
  y : F
  z : F
  conversion_count : BitVec 8

/-- Two bytes of a burst, the first the high one. -/
def word (data : List (BitVec 8)) (i : ℕ) : BitVec 16 := data.getD i 0 ++ data.getD (i + 1) 0

variable (p : BasePeripheral World E)

def readRaw (ec : Option E) (w : World) : RawMagneticData × Option E × World :=
  let (data, ec, w) := p.readMany X_MSB_RESULT 7 ec w
  if ec.isSome then ({}, ec, w)
  else (⟨word data 0, word data 2, word data 4, (data.getD 6 0 >>> 5) &&& 0x07⟩, ec, w)

def readMagnetic (d : Tmag5273) (ec : Option E) (w : World) :
    MagneticData F × Option E × World :=
  let (raw, ec, w) := readRaw p ec w
  if ec.isSome then (⟨ofRat 0, ofRat 0, ofRat 0, 0⟩, ec, w)
  else
    (⟨convertRawToMT d.variant_ raw.x d.xyRange_, convertRawToMT d.variant_ raw.y d.xyRange_,
      convertRawToMT d.variant_ raw.z d.zRange_, raw.conversion_count⟩, ec, w)

/-- The course of `read_x`, `read_y` and `read_z`. -/
def readAxis (reg : BitVec 8) (variant : Variant) (range : MagneticRange) (ec : Option E)
    (w : World) : F × Option E × World :=
  let (data, ec, w) := p.readMany reg 2 ec w
  if ec.isSome then (ofRat 0, ec, w) else (convertRawToMT variant (word data 0) range, ec, w)

def readX (d : Tmag5273) (ec : Option E) (w : World) : F × Option E × World :=
  readAxis p X_MSB_RESULT d.variant_ d.xyRange_ ec w

def readY (d : Tmag5273) (ec : Option E) (w : World) : F × Option E × World :=
  readAxis p Y_MSB_RESULT d.variant_ d.xyRange_ ec w

def readZ (d : Tmag5273) (ec : Option E) (w : World) : F × Option E × World :=
  readAxis p Z_MSB_RESULT d.variant_ d.zRange_ ec w

end Readings

end Tmag5273

end OmegaStick
