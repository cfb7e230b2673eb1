import OmegaStick.Console.Transactions
import OmegaStick.Library.ByteView

/-!
# Firmware images

`inspectImage` of `omega_protocol.js`, which looks at a firmware file before it is sent.
`CompleteImage` says what a complete image for this device is, and `inspectImage_ok_iff`
that exactly these are found to be in order, with no read past the end of the file.
-/

namespace OmegaStick

open ByteView

namespace Console

/-! ## The inspection -/

/-- `OTA_SLOT_SIZE` -/
def otaSlotSize : ℕ := 0x1E0000

/-- `CHIP_ID_ESP32S3` -/
def chipIdEsp32S3 : ℕ := 9

/-- `DEFAULT_PROJECT` -/
def defaultProject : JsString := js "omega_stick"

/-- `IMAGE_MAGIC` -/
def imageMagic : UInt8 := 0xE9

/-- `APP_DESC_MAGIC` -/
def appDescMagic : ℕ := 0xABCD5432

/-- `IMAGE_HEADER_SIZE` -/
def imageHeaderSize : ℕ := 24

/-- `SEGMENT_HEADER_SIZE` -/
def segmentHeaderSize : ℕ := 8

/-- `APP_DESC_OFFSET` -/
def appDescOffset : ℕ := imageHeaderSize + segmentHeaderSize

/-- `APP_DESC_SIZE` -/
def appDescSize : ℕ := 256

/-- `MAX_SEGMENTS` -/
def maxSegments : ℕ := 16

/-- `CHIP_NAMES[id] || ("chip id " + id)` -/
def chipName : ℕ → JsString
  | 0 => js "ESP32"
  | 2 => js "ESP32-S2"
  | 5 => js "ESP32-C3"
  | 9 => js "ESP32-S3"
  | 12 => js "ESP32-C2"
  | 13 => js "ESP32-C6"
  | 16 => js "ESP32-H2"
  | 18 => js "ESP32-P4"
  | 20 => js "ESP32-C61"
  | 23 => js "ESP32-C5"
  | 25 => js "ESP32-H21"
  | 28 => js "ESP32-H4"
  | id => js "chip id " ++ js (toString id)

/-- `cString`: up to a NUL, within `len` bytes and the file. -/
def cString (bytes : List UInt8) (start len : ℕ) : JsString :=
  (((bytes.drop start).take len).takeWhile (· ≠ 0)).map UInt8.toUInt16

def hexDigit (n : ℕ) : UInt16 := UInt16.ofNat (if n < 10 then 48 + n else 87 + n)

/-- `hexOf` -/
def hexOf (bytes : List UInt8) (start len : ℕ) : Except ReadError JsString :=
  if bytes.length < start + len then .error .missing
  else .ok (((bytes.drop start).take len).flatMap fun c =>
    [hexDigit (c.toNat / 16), hexDigit (c.toNat % 16)])

/-- `formatBytes`: a comma before every three digits. -/
def formatBytes (n : ℕ) : JsString :=
  let digits := js (toString n)
  (digits.zipIdx.flatMap fun (c, i) =>
    if i ≠ 0 ∧ (digits.length - i) % 3 = 0 then [44, c] else [c]) ++ js " B"

/-- The codes of errors and warnings. -/
inductive FindingCode where
  | empty
  | elf
  | partitionTable
  | notEspImage
  | truncated
  | wrongChip
  | notAppImage
  | wrongProject
  | tooBig
  | secureVersion
  deriving DecidableEq, Repr

structure Finding where
  code : FindingCode
  message : JsString
  deriving DecidableEq, Repr

structure AppDesc where
  secureVersion : ℕ
  version : JsString
  project : JsString
  time : JsString
  date : JsString
  idf : JsString
  sha256 : JsString
  shaShort : JsString
  deriving DecidableEq, Repr

structure ImageInfo where
  size : ℕ
  segmentCount : ℕ
  chipId : ℕ
  minChipRev : ℕ
  maxChipRev : ℕ
  hashAppended : Bool
  expectedSize : Option ℤ := none
  appDesc : Option AppDesc := none
  chipName : JsString
  deriving DecidableEq, Repr

/-- What `inspectImage` returns. -/
structure Inspection where
  errors : List Finding
  warnings : List Finding
  info : Option ImageInfo
  deriving DecidableEq, Repr

/-- `errors.length === 0` -/
def Inspection.ok (r : Inspection) : Bool := r.errors.isEmpty

/-- The options; a missing text is empty, and a missing size zero. -/
structure ImageOptions where
  expectedProject : JsString := []
  slotSize : ℕ := 0
  chipId : Option ℕ := none

namespace ImageOptions

/-- `opt.slotSize || OTA_SLOT_SIZE` -/
def slot (options : ImageOptions) : ℕ :=
  if options.slotSize = 0 then otaSlotSize else options.slotSize

def chip (options : ImageOptions) : ℕ := options.chipId.getD chipIdEsp32S3

/-- `opt.expectedProject || DEFAULT_PROJECT` -/
def project (options : ImageOptions) : JsString :=
  if options.expectedProject = [] then defaultProject else options.expectedProject

end ImageOptions

def readInfo (bytes : List UInt8) : Except ReadError ImageInfo := do
  let segmentCount ← getByte bytes 1
  let chipId ← getUint 2 bytes 12
  let minChipRev ← getUint 2 bytes 15
  let maxChipRev ← getUint 2 bytes 17
  let hash ← getByte bytes 23
  return {
    size := bytes.length
    segmentCount := segmentCount.toNat
    chipId, minChipRev, maxChipRev
    hashAppended := hash == 1
    chipName := chipName chipId }

/-- The walk over the segments, to the end of the last one. -/
def walkSegments (bytes : List UInt8) : ℕ → ℕ → Except ReadError (Option ℕ)
  | 0, pos => .ok (some pos)
  | n + 1, pos =>
      if bytes.length < pos + segmentHeaderSize then .ok none
      else do
        let size ← getUint 4 bytes (pos + 4)
        let pos := pos + (segmentHeaderSize + size)
        if bytes.length < pos then return none
        else walkSegments bytes n pos

/-- The expected size, when the walk gets to it, and `walkOk`. -/
def walkImage (bytes : List UInt8) (info : ImageInfo) : Except ReadError (Option ℤ × Bool) := do
  match ← walkSegments bytes info.segmentCount imageHeaderSize with
  | none => return (none, false)
  | some pos =>
      -- the checksum byte ends the block of sixteen after the last segment
      let expectedSize := orInt32 pos 15 + 1 + (if info.hashAppended then 32 else 0)
      return (some expectedSize, !decide ((bytes.length : ℤ) < expectedSize))

def readAppDesc (bytes : List UInt8) : Except ReadError AppDesc := do
  let d := appDescOffset
  let secureVersion ← getUint 4 bytes (d + 4)
  let sha256 ← hexOf bytes (d + 144) 32
  return {
    secureVersion
    version := cString bytes (d + 16) 32
    project := cString bytes (d + 48) 32
    time := cString bytes (d + 80) 16
    date := cString bytes (d + 96) 16
    idf := cString bytes (d + 112) 32
    sha256
    shaShort := sha256.take 8 }

/-- `hasDesc` -/
def hasAppDesc (bytes : List UInt8) : Except ReadError Bool :=
  if bytes.length < appDescOffset + 4 then .ok false
  else do return (← getUint 4 bytes appDescOffset) == appDescMagic

def wrongProject (desc : AppDesc) (project : JsString) : Finding where
  code := .wrongProject
  message := js "This firmware is for a different product (\"" ++
    (if desc.project = [] then js "unnamed" else desc.project) ++ js "\" instead of \"" ++
    project ++ js "\"). Choose the " ++ project ++ js " application .bin file."

def secureVersionWarning (desc : AppDesc) : Finding where
  code := .secureVersion
  message := js "This image sets a secure (anti-rollback) version of " ++
    js (toString desc.secureVersion) ++ js "."

def notAppImage : Finding where
  code := .notAppImage
  message := js ("This is an ESP32 image but not an application (it could be a bootloader). " ++
    "Choose the application .bin file (omega_stick.bin).")

def cutAppDesc : Finding where
  code := .truncated
  message := js ("The file ends inside the firmware's description block, so it is incomplete. " ++
    "Build it again or copy it again.")

/-- The app descriptor: what is read of it, the errors and the warnings. -/
def inspectAppDesc (bytes : List UInt8) (walkOk : Bool) (project : JsString) :
    Except ReadError (Option AppDesc × List Finding × List Finding) := do
  if !(← hasAppDesc bytes) then
    return (none, if walkOk then [notAppImage] else [], [])
  else if bytes.length < appDescOffset + appDescSize then
    -- the file ends inside the descriptor
    return (none, if walkOk then [cutAppDesc] else [], [])
  else do
    let desc ← readAppDesc bytes
    return (some desc, if desc.project = project then [] else [wrongProject desc project],
      if desc.secureVersion = 0 then [] else [secureVersionWarning desc])

def wrongChip (info : ImageInfo) (chip : ℕ) : Finding where
  code := .wrongChip
  message := js "This firmware is built for the " ++ info.chipName ++
    js ", but this device is an " ++ chipName chip ++ js ". Flashing it would not work."

def incomplete : Finding where
  code := .truncated
  message := js ("The file is incomplete (it ends before the image does). " ++
    "Build it again or copy it again.")

def tooBig (size slot : ℕ) : Finding where
  code := .tooBig
  message := js "The file is " ++ formatBytes size ++ js ", which is larger than the " ++
    formatBytes slot ++ js " update slot on the device. It cannot be installed."

/-- An image with a header and a sensible number of segments. -/
def inspectBody (bytes : List UInt8) (options : ImageOptions) (info : ImageInfo) :
    Except ReadError Inspection := do
  let (expectedSize, walkOk) ← walkImage bytes info
  let (appDesc, descErrors, warnings) ← inspectAppDesc bytes walkOk options.project
  return {
    errors :=
      (if info.chipId = options.chip then [] else [wrongChip info options.chip]) ++
      (if walkOk then [] else [incomplete]) ++
      descErrors ++
      (if options.slot < bytes.length then [tooBig bytes.length options.slot] else [])
    warnings
    info := some { info with expectedSize, appDesc } }

def refused (code : FindingCode) (message : JsString) (info : Option ImageInfo) : Inspection :=
  ⟨[⟨code, message⟩], [], info⟩

/-- `inspectImage` -/
def inspectImage (bytes : List UInt8) (options : ImageOptions) : Except ReadError Inspection :=
  if bytes.length = 0 then .ok (refused .empty (js "The file is empty.") none)
  else if bytes.take 4 = [0x7F, 0x45, 0x4C, 0x46] then
    .ok (refused .elf (js ("This is an .elf file, not a firmware image. " ++
      "Choose the .bin file from the build folder instead.")) none)
  else if bytes.take 2 = [0xAA, 0x50] then
    .ok (refused .partitionTable (js ("This is a partition table, not a firmware image. " ++
      "Choose the main application .bin file (omega_stick.bin).")) none)
  else if bytes.head? ≠ some imageMagic then
    .ok (refused .notEspImage (js ("This is not an ESP32 firmware image. " ++
      "Choose the application .bin file from the build folder (omega_stick.bin).")) none)
  else if bytes.length < imageHeaderSize then
    .ok (refused .truncated (js "The file is cut short (" ++ js (toString bytes.length) ++
      js " bytes). Copy or build it again.") none)
  else do
    let info ← readInfo bytes
    if info.segmentCount = 0 ∨ maxSegments < info.segmentCount then
      return refused .notEspImage
        (js ("This does not look like a valid ESP32 firmware image (bad header). " ++
          "Choose the application .bin file.")) info
    else inspectBody bytes options info

/-! ## Complete images -/

/-- `count` segments, headers and data, from one position in the file to another. -/
inductive SegmentChain (bytes : List UInt8) : ℕ → ℕ → ℕ → Prop where
  | nil {pos : ℕ} : SegmentChain bytes 0 pos pos
  | cons {count pos stop : ℕ} :
      pos + segmentHeaderSize ≤ bytes.length →
      pos + (segmentHeaderSize + uintAt 4 bytes (pos + 4)) ≤ bytes.length →
      SegmentChain bytes count (pos + (segmentHeaderSize + uintAt 4 bytes (pos + 4))) stop →
      SegmentChain bytes (count + 1) pos stop

/-- The end of the block of sixteen that the checksum byte after a position ends. -/
def paddedEnd (pos : ℕ) : ℕ := (pos / 16 + 1) * 16

/-- A complete image for the device the options describe. -/
structure CompleteImage (options : ImageOptions) (bytes : List UInt8) : Prop where
  magic : bytes[0]? = some imageMagic
  header : imageHeaderSize ≤ bytes.length
  segments : ∃ count stop, bytes[1]? = some count ∧ 1 ≤ count.toNat ∧ count.toNat ≤ maxSegments ∧
    SegmentChain bytes count.toNat imageHeaderSize stop ∧
    paddedEnd stop + (if bytes[23]? = some 1 then 32 else 0) ≤ bytes.length
  chip : uintAt 2 bytes 12 = options.chip
  descriptor : appDescOffset + appDescSize ≤ bytes.length ∧
    uintAt 4 bytes appDescOffset = appDescMagic
  project : cString bytes (appDescOffset + 48) 32 = options.project
  slot : bytes.length ≤ options.slot

/-! ## The walk -/

theorem SegmentChain.le {bytes : List UInt8} {count pos stop : ℕ}
    (h : SegmentChain bytes count pos stop) (hpos : pos ≤ bytes.length) : stop ≤ bytes.length := by
  induction h with
  | nil => exact hpos
  | cons _ hdata _ ih => exact ih hdata

/-- The walk gets to the end exactly when the segments are a chain. -/
theorem walkSegments_spec (bytes : List UInt8) (count : ℕ) :
    ∀ pos, ∃ stop, walkSegments bytes count pos = .ok stop ∧
      ∀ stop', stop = some stop' ↔ SegmentChain bytes count pos stop' := by
  induction count with
  | zero =>
      intro pos
      refine ⟨some pos, rfl, fun stop' => ⟨?_, ?_⟩⟩
      · intro h
        cases h
        exact .nil
      · intro h
        cases h
        rfl
  | succ count ih =>
      intro pos
      rw [walkSegments]
      split_ifs with hheader
      · refine ⟨none, rfl, fun stop' => ⟨nofun, ?_⟩⟩
        intro h
        cases h with
        | cons h => exact absurd h (not_le.mpr hheader)
      · have hread : getUint 4 bytes (pos + 4) = .ok (uintAt 4 bytes (pos + 4)) :=
          getUint_of_le (by simp only [segmentHeaderSize] at hheader; omega)
        simp only [hread, bind, Except.bind, pure, Except.pure]
        split_ifs with hdata
        · refine ⟨none, rfl, fun stop' => ⟨nofun, ?_⟩⟩
          intro h
          cases h with
          | cons _ h => exact absurd h (not_le.mpr hdata)
        · obtain ⟨stop, hwalk, hstop⟩ := ih (pos + (segmentHeaderSize + uintAt 4 bytes (pos + 4)))
          refine ⟨stop, hwalk, fun stop' => (hstop stop').trans ⟨?_, ?_⟩⟩
          · exact .cons (not_lt.mp hheader) (not_lt.mp hdata)
          · intro h
            cases h with
            | cons _ _ h => exact h

/-- What the walk says of a file shorter than two gigabytes, where the rounding up is right. -/
theorem walkImage_spec {bytes : List UInt8} (hheader : imageHeaderSize ≤ bytes.length)
    (info : ImageInfo) :
    ∃ size walkOk, walkImage bytes info = .ok (size, walkOk) ∧
      (bytes.length < 2 ^ 31 → (walkOk = true ↔
        ∃ stop, SegmentChain bytes info.segmentCount imageHeaderSize stop ∧
          paddedEnd stop + (if info.hashAppended then 32 else 0) ≤ bytes.length)) := by
  obtain ⟨stop, hwalk, hstop⟩ := walkSegments_spec bytes info.segmentCount imageHeaderSize
  rw [walkImage, hwalk]
  cases stop with
  | none =>
      refine ⟨none, false, rfl, fun _ => ⟨nofun, ?_⟩⟩
      rintro ⟨stop, hchain, -⟩
      cases (hstop stop).mpr hchain
  | some stop =>
      refine ⟨_, _, rfl, fun hlength => ?_⟩
      have hchain := (hstop stop).mp rfl
      have hsize : (orInt32 stop 15 + 1 + (if info.hashAppended then 32 else 0) : ℤ) =
          (paddedEnd stop + (if info.hashAppended then 32 else 0) : ℕ) := by
        rw [orInt32_fifteen ((hchain.le hheader).trans_lt hlength), paddedEnd]
        split_ifs <;> push_cast <;> ring
      rw [hsize, Bool.not_eq_true', decide_eq_false_iff_not, not_lt, Int.ofNat_le]
      refine ⟨fun hle => ⟨stop, hchain, hle⟩, ?_⟩
      rintro ⟨stop', hchain', hle⟩
      rwa [Option.some.inj ((hstop stop').mpr hchain')]

/-! ## The header and the app descriptor -/

theorem readInfo_spec {bytes : List UInt8} (h : imageHeaderSize ≤ bytes.length) :
    ∃ info count, readInfo bytes = .ok info ∧ bytes[1]? = some count ∧
      info.segmentCount = count.toNat ∧ info.chipId = uintAt 2 bytes 12 ∧
      (info.hashAppended = true ↔ bytes[23]? = some 1) := by
  have hle : 24 ≤ bytes.length := h
  obtain ⟨count, hcount, hreadCount⟩ := getByte_of_lt (show 1 < bytes.length by omega)
  obtain ⟨hash, hhash, hreadHash⟩ := getByte_of_lt (show 23 < bytes.length by omega)
  have hnumber : ∀ offset, offset + 2 ≤ 24 →
      getUint 2 bytes offset = .ok (uintAt 2 bytes offset) :=
    fun offset hoffset => getUint_of_le (hoffset.trans hle)
  simp only [readInfo, hreadCount, hreadHash, hnumber 12 (by decide), hnumber 15 (by decide),
    hnumber 17 (by decide), bind, Except.bind, pure, Except.pure, hhash, Option.some.injEq]
  exact ⟨_, count, rfl, hcount, rfl, rfl, beq_iff_eq⟩

theorem readAppDesc_spec {bytes : List UInt8} (h : appDescOffset + appDescSize ≤ bytes.length) :
    ∃ desc, readAppDesc bytes = .ok desc ∧
      desc.project = cString bytes (appDescOffset + 48) 32 := by
  have hle : 288 ≤ bytes.length := h
  have hsha : ∃ sha, hexOf bytes (appDescOffset + 144) 32 = .ok sha :=
    ⟨_, if_neg (not_lt.mpr ((by decide : appDescOffset + 144 + 32 ≤ 288).trans hle))⟩
  obtain ⟨sha, hsha⟩ := hsha
  have hsecure : getUint 4 bytes (appDescOffset + 4) = .ok (uintAt 4 bytes (appDescOffset + 4)) :=
    getUint_of_le ((by decide : appDescOffset + 4 + 4 ≤ 288).trans hle)
  simp only [readAppDesc, hsecure, hsha, bind, Except.bind, pure, Except.pure]
  exact ⟨_, rfl, rfl⟩

theorem hasAppDesc_eq (bytes : List UInt8) :
    hasAppDesc bytes = .ok (decide (appDescOffset + 4 ≤ bytes.length ∧
      uintAt 4 bytes appDescOffset = appDescMagic)) := by
  rw [hasAppDesc]
  split_ifs with hlength
  · simp [not_le.mpr hlength]
  · rw [getUint_of_le (not_lt.mp hlength)]
    simp only [bind, Except.bind, pure, Except.pure, not_lt.mp hlength, true_and]
    rfl

/-- The descriptor's errors; where the walk failed the file is refused already. -/
theorem inspectAppDesc_spec (bytes : List UInt8) (walkOk : Bool) (project : JsString) :
    ∃ desc errors warnings, inspectAppDesc bytes walkOk project = .ok (desc, errors, warnings) ∧
      (walkOk = true → (errors = [] ↔
        (appDescOffset + appDescSize ≤ bytes.length ∧
          uintAt 4 bytes appDescOffset = appDescMagic) ∧
        cString bytes (appDescOffset + 48) 32 = project)) := by
  rw [inspectAppDesc, hasAppDesc_eq]
  simp only [bind, Except.bind]
  by_cases hdesc : appDescOffset + 4 ≤ bytes.length ∧ uintAt 4 bytes appDescOffset = appDescMagic
  · simp only [hdesc, and_self, decide_true, Bool.not_true, Bool.false_eq_true, if_false]
    by_cases hlength : bytes.length < appDescOffset + appDescSize
    · simp only [if_pos hlength, pure, Except.pure]
      refine ⟨none, _, [], rfl, fun hwalk => ?_⟩
      rw [if_pos hwalk]
      exact ⟨fun h => absurd h (List.cons_ne_nil _ _), fun h => absurd h.1.1 (not_le.mpr hlength)⟩
    · obtain ⟨desc, hread, hproject⟩ := readAppDesc_spec (not_lt.mp hlength)
      simp only [if_neg hlength, hread, pure, Except.pure]
      refine ⟨some desc, _, _, rfl, fun _ => ?_⟩
      rw [hproject]
      split_ifs with heq
      · simp [heq, not_lt.mp hlength]
      · simp [heq]
  · simp only [hdesc, decide_false, Bool.not_false, if_true]
    refine ⟨none, _, [], rfl, fun hwalk => ?_⟩
    rw [if_pos hwalk]
    refine ⟨fun h => absurd h (List.cons_ne_nil _ _), ?_⟩
    rintro ⟨⟨hlength, hmagic⟩, -⟩
    exact absurd ⟨(Nat.add_le_add_left (by decide) _).trans hlength, hmagic⟩ hdesc

/-! ## The verdict -/

theorem inspectBody_spec {bytes : List UInt8} (hheader : imageHeaderSize ≤ bytes.length)
    (options : ImageOptions) (hslot : options.slot < 2 ^ 31) (info : ImageInfo) :
    ∃ r, inspectBody bytes options info = .ok r ∧ (r.ok = true ↔
      info.chipId = options.chip ∧
      (∃ stop, SegmentChain bytes info.segmentCount imageHeaderSize stop ∧
        paddedEnd stop + (if info.hashAppended then 32 else 0) ≤ bytes.length) ∧
      ((appDescOffset + appDescSize ≤ bytes.length ∧
        uintAt 4 bytes appDescOffset = appDescMagic) ∧
        cString bytes (appDescOffset + 48) 32 = options.project) ∧
      bytes.length ≤ options.slot) := by
  obtain ⟨size, walkOk, hwalk, hcomplete⟩ := walkImage_spec hheader info
  obtain ⟨desc, errors, warnings, hdesc, herrors⟩ :=
    inspectAppDesc_spec bytes walkOk options.project
  simp only [inspectBody, hwalk, hdesc, bind, Except.bind, pure, Except.pure]
  refine ⟨_, rfl, ?_⟩
  rw [Inspection.ok, List.isEmpty_iff]
  dsimp only
  rw [List.append_eq_nil_iff, List.append_eq_nil_iff, List.append_eq_nil_iff, and_assoc, and_assoc]
  have hchip : (if info.chipId = options.chip then [] else [wrongChip info options.chip]) = [] ↔
      info.chipId = options.chip := by
    split_ifs with h <;> simp [h]
  have hbig : (if options.slot < bytes.length then [tooBig bytes.length options.slot] else []) =
      [] ↔ bytes.length ≤ options.slot := by
    split_ifs with h
    · simp [h]
    · simp [not_lt.mp h]
  have hwalked : (if walkOk then [] else [incomplete]) = [] ↔ walkOk = true := by
    cases walkOk <;> simp
  rw [hchip, hbig, hwalked]
  constructor
  · rintro ⟨hchip, hok, hnone, hfits⟩
    exact ⟨hchip, (hcomplete (hfits.trans_lt hslot)).mp hok, (herrors hok).mp hnone, hfits⟩
  · rintro ⟨hchip, hsegments, hdescriptor, hfits⟩
    have hok := (hcomplete (hfits.trans_lt hslot)).mpr hsegments
    exact ⟨hchip, hok, (herrors hok).mpr hdescriptor, hfits⟩

/-- **A firmware file is in order exactly when it is a complete image for the device**,
and no inspection reads past the end of the file. The page leaves the slot at the size of
the partition; rounding up in 32 bits is right for any slot below two gigabytes. -/
theorem inspectImage_ok_iff (bytes : List UInt8) (options : ImageOptions)
    (hslot : options.slot < 2 ^ 31) :
    ∃ r, inspectImage bytes options = .ok r ∧ (r.ok = true ↔ CompleteImage options bytes) := by
  -- a refusal is right when the image is not complete
  have hrefused : ∀ code message info, ¬ CompleteImage options bytes →
      ∃ r, (Except.ok (refused code message info) : Except ReadError Inspection) = .ok r ∧
        (r.ok = true ↔ CompleteImage options bytes) :=
    fun code message info h => ⟨_, rfl, by simp [refused, Inspection.ok, h]⟩
  -- the files that are known by another first byte
  have hfirst : ∀ {n : ℕ} {c : UInt8} {rest : List UInt8}, bytes.take (n + 1) = c :: rest →
      c ≠ imageMagic → ¬ CompleteImage options bytes := by
    intro n c rest htake hne h
    have hmagic := h.magic
    rw [← List.getElem?_take_of_lt (Nat.succ_pos n), htake] at hmagic
    exact hne (Option.some.inj hmagic)
  rw [inspectImage]
  split_ifs with hempty helf htable hmagic hheader
  · exact hrefused _ _ _ fun h => by
      have hlength := h.header
      rw [hempty] at hlength
      exact absurd hlength (by decide)
  · exact hrefused _ _ _ (hfirst helf (by decide))
  · exact hrefused _ _ _ (hfirst htable (by decide))
  · exact hrefused _ _ _ fun h => hmagic (List.head?_eq_getElem?.trans h.magic)
  · exact hrefused _ _ _ fun h => absurd h.header (not_le.mpr hheader)
  · obtain ⟨info, count, hread, hcount, hsegments, hchip, hhash⟩ :=
      readInfo_spec (not_lt.mp hheader)
    simp only [hread, bind, Except.bind, pure, Except.pure]
    by_cases hbad : info.segmentCount = 0 ∨ maxSegments < info.segmentCount
    · rw [if_pos hbad]
      refine hrefused _ _ _ fun h => ?_
      obtain ⟨count', -, hcount', hpos, hmost, -⟩ := h.segments
      rw [hcount, Option.some.injEq] at hcount'
      rw [hsegments, hcount'] at hbad
      omega
    · rw [if_neg hbad]
      obtain ⟨r, hbody, hok⟩ := inspectBody_spec (not_lt.mp hheader) options hslot info
      have hsha : (if info.hashAppended = true then 32 else 0 : ℕ) =
          if bytes[23]? = some 1 then 32 else 0 := if_congr hhash rfl rfl
      refine ⟨r, hbody, hok.trans ?_⟩
      rw [hsha, hchip, hsegments]
      -- the parts of the body, as `inspectBody_spec` names them
      constructor
      · rintro ⟨hchip', ⟨stop, hchain, hend⟩, ⟨hdescriptor, hproject⟩, hfits⟩
        have hcount' : 1 ≤ count.toNat ∧ count.toNat ≤ maxSegments := by
          rw [hsegments] at hbad
          omega
        exact
          { magic := (List.head?_eq_getElem?.symm.trans (not_not.mp hmagic))
            header := not_lt.mp hheader
            segments := ⟨count, stop, hcount, hcount'.1, hcount'.2, hchain, hend⟩
            chip := hchip'
            descriptor := hdescriptor
            project := hproject
            slot := hfits }
      · intro h
        obtain ⟨count', stop, hcount', -, -, hchain, hend⟩ := h.segments
        rw [hcount, Option.some.injEq] at hcount'
        subst hcount'
        exact ⟨h.chip, ⟨stop, hchain, hend⟩, ⟨h.descriptor, h.project⟩, h.slot⟩

/-- The smallest image of this firmware: one segment, which is the app descriptor. -/
def smallestImage : List UInt8 :=
  [0xE9, 1] ++ List.replicate 10 0 ++ [9, 0] ++ List.replicate 10 0 ++
    [0, 0, 0, 0, 0, 1, 0, 0, 0x32, 0x54, 0xCD, 0xAB] ++ List.replicate 44 0 ++
    ascii "omega_stick" ++ List.replicate 213 0

theorem inspectImage_ok_iff_smallest :
    ∃ r, inspectImage smallestImage {} = .ok r ∧ r.ok = true ∧ CompleteImage {} smallestImage := by
  obtain ⟨r, hr, hok⟩ := inspectImage_ok_iff smallestImage {} (by decide +kernel)
  have hrun : (inspectImage smallestImage {}).toOption.map Inspection.ok = some true := by
    decide +kernel
  rw [hr] at hrun
  have hpassed : r.ok = true := Option.some.inj hrun
  exact ⟨r, hr, hpassed, hok.mp hpassed⟩

/-- A file without its last byte is incomplete. -/
example : (inspectImage (smallestImage.take 303) {}).toOption.map (·.errors.map Finding.code) =
    some [.truncated] := by decide +kernel

end Console

end OmegaStick
