import OmegaStick.Console.Payloads
import OmegaStick.Service.Hold

/-!
# STATE and the SET requests, end to end

Both sides of the settings protocol together.  What the firmware encodes of a
snapshot the console decodes to the same words, field by field, and what the
console encodes of its controls the handlers read back, so that a GET_STATE
after an accepted request decodes to the snapshot with that edit and no other.
-/

namespace OmegaStick

namespace Console

open FloatBits JsNumber MachineFloat

/-- The nudge hold time fits in the field it is sent in. -/
def HoldTimeFits {F : Type*} (snap : OmegaStore F) : Prop :=
  0 ≤ snap.settings.nudgeHoldTime ∧ snap.settings.nudgeHoldTime < 2 ^ 32

instance {F : Type*} (snap : OmegaStore F) : Decidable (HoldTimeFits snap) :=
  inferInstanceAs (Decidable (_ ∧ _))

theorem toNat_holdTime {F : Type*} {snap : OmegaStore F} (h : HoldTimeFits snap) :
    (UInt32.ofInt snap.settings.nudgeHoldTime).toNat = snap.settings.nudgeHoldTime.toNat := by
  rw [UInt32.ofInt, Int.emod_eq_of_lt h.1 h.2, UInt32.toNat_ofNat']
  have hlt := h.2
  omega

section Decode

variable {F : Type*} [FloatBits F]

/-- A snapshot as the console is to see it. -/
def DecodedState.ofSnapshot (snap : OmegaStore F) (nudgeEnabled : Option Bool) : DecodedState where
  centerX := toBits snap.center.centerX
  centerY := toBits snap.center.centerY
  centerNoise := toBits snap.center.noiseRadius
  centerDeadzoneAuto := toBits snap.center.deadzone
  manualOffsetX := toBits snap.center.manualOffsetX
  manualOffsetY := toBits snap.center.manualOffsetY
  rangeMinX := toBits snap.range.minX
  rangeMaxX := toBits snap.range.maxX
  rangeMinY := toBits snap.range.minY
  rangeMaxY := toBits snap.range.maxY
  usableRadius := toBits snap.range.usableRadius
  reliableMaxRadius := toBits snap.range.reliableMaxRadius
  normalizedMaxRadius := toBits snap.range.normalizedMaxRadius
  rangeDeadzoneAuto := toBits snap.range.deadzone
  manualCenterDeadzone := snap.settings.manualCenterDeadzone.map toBits
  manualRangeDeadzone := snap.settings.manualRangeDeadzone.map toBits
  nudgeEnterThreshold := toBits snap.settings.nudgeDistanceThreshold
  nudgeExitThreshold := toBits snap.settings.nudgeExitThreshold
  nudgeTimeMs := snap.settings.nudgeHoldTime.toNat
  inputMode := snap.settings.inputMode.code
  nudgeEnabled := nudgeEnabled

/-- A snapshot as the console does see it: of a nudge hold time that does not fit in its
field, the low bits. -/
def DecodedState.sent (snap : OmegaStore F) (nudgeEnabled : Option Bool) : DecodedState :=
  { ofSnapshot snap nudgeEnabled with
    nudgeTimeMs := (UInt32.ofInt snap.settings.nudgeHoldTime).toNat }

theorem DecodedState.sent_eq {snap : OmegaStore F} (h : HoldTimeFits snap)
    (nudgeEnabled : Option Bool) : sent snap nudgeEnabled = ofSnapshot snap nudgeEnabled := by
  rw [sent, toNat_holdTime h]
  rfl

variable [MachineFloat F]

theorem decode_override (value : Option F) :
    (if flagByte value.isSome != 0 then some (toBits (value.getD (ofRat 0))) else none) =
      value.map toBits := by
  cases value <;> rfl

/-- All fields but the last are read back, and the last from what follows them. -/
theorem readState_dropLast (snap : OmegaStore F) (rest : List UInt8) :
    (readState ((buildStatePayload snap).dropLast ++ rest)).1 =
      .sent snap (rest.head?.map (· != 0)) := by
  have hdrop : ∀ fields : List UInt8, ∀ last, (fields ++ [last]).dropLast = fields :=
    fun _ _ => List.dropLast_concat
  unfold buildStatePayload readState
  rw [hdrop]
  simp only [List.append_assoc, putF32, bind, StateT.bind, f32_putU32, u32_putU32,
    List.cons_append, List.nil_append, u8_cons, pure, get, getThe, MonadStateOf.get, StateT.get,
    decode_override]
  cases rest with
  | nil => rfl
  | cons enabled rest => rfl

theorem decodeState_sent (snap : OmegaStore F) :
    decodeState (buildStatePayload snap) =
      .ok (.sent snap (some snap.settings.nudgeEnabled)) := by
  have hlast : buildStatePayload snap =
      (buildStatePayload snap).dropLast ++ [flagByte snap.settings.nudgeEnabled] := by
    unfold buildStatePayload
    rw [List.dropLast_concat]
  have hread := readState_dropLast snap [flagByte snap.settings.nudgeEnabled]
  rw [← hlast] at hread
  rw [decodeState, if_neg (by rw [length_buildStatePayload]; decide), hread]
  cases snap.settings.nudgeEnabled <;> rfl

/-- The console decodes what the firmware encodes. -/
theorem decodeState_buildStatePayload {snap : OmegaStore F} (h : HoldTimeFits snap) :
    decodeState (buildStatePayload snap) =
      .ok (.ofSnapshot snap (some snap.settings.nudgeEnabled)) := by
  rw [decodeState_sent, DecodedState.sent_eq h]

/-- And what firmware without the nudge switch would. -/
theorem decodeState_dropLast {snap : OmegaStore F} (h : HoldTimeFits snap) :
    decodeState (buildStatePayload snap).dropLast = .ok (.ofSnapshot snap none) := by
  have hread := readState_dropLast snap []
  rw [List.append_nil, DecodedState.sent_eq h] at hread
  rw [decodeState, if_neg, hread]
  · rfl
  · rw [List.length_dropLast, length_buildStatePayload]
    decide

end Decode

/-! ## The console's edits -/

/-- A SET request with the arguments it is encoded from. -/
inductive SetRequest (N : Type*) where
  | setManualOffset (x y : N)
  | setDeadzoneOverride (centerOn : Bool) (centerVal : N) (rangeOn : Bool) (rangeVal : N)
  | setNudgeSettings (enter exit timeMs : N)
  | setNudgeEnabled (enabled : Bool)
  | setInputMode (mode : N)
  deriving DecidableEq, Repr

namespace SetRequest

variable {N : Type*} [JsNumber N]

def msg : SetRequest N → Msg
  | setManualOffset .. => .setManualOffset
  | setDeadzoneOverride .. => .setDeadzoneOverride
  | setNudgeSettings .. => .setNudgeSettings
  | setNudgeEnabled _ => .setNudgeEnabled
  | setInputMode _ => .setInputMode

def encode : SetRequest N → List UInt8
  | setManualOffset x y => encodeSetManualOffset x y
  | setDeadzoneOverride centerOn centerVal rangeOn rangeVal =>
      encodeSetDeadzoneOverride centerOn centerVal rangeOn rangeVal
  | setNudgeSettings enter exit timeMs => encodeSetNudgeSettings enter exit timeMs
  | setNudgeEnabled enabled => encodeSetNudgeEnabled enabled
  | setInputMode mode => encodeSetInputMode mode

/-- The one setting the firmware applies only once its reply is queued. -/
def appliedAfterReply : SetRequest N → Bool
  | setInputMode _ => true
  | _ => false

section Meaning

variable (F : Type*) [FloatBits F]

/-- An argument as the firmware has it, rounded to a float. -/
def arg (x : N) : F := ofBits (float32 x)

/-- An override that is switched on. -/
def override (on : Bool) (value : N) : Option F := if on then some (arg F value) else none

/-- The edit a request asks for. -/
def edit : SetRequest N → ConsoleEdit F
  | setManualOffset x y => .setManualOffset (arg F x) (arg F y)
  | setDeadzoneOverride centerOn centerVal rangeOn rangeVal =>
      .setDeadzoneOverride (override F centerOn centerVal) (override F rangeOn rangeVal)
  | setNudgeSettings enter exit timeMs =>
      .setNudgeSettings (arg F enter) (arg F exit) (uint32 timeMs).toNat
  | setNudgeEnabled enabled => .setNudgeEnabled enabled
  | setInputMode mode => .setInputMode ⟨uint8 mode⟩

/-- The edit on a decoded snapshot: the fields it sets, and no other. -/
def editDecoded (d : DecodedState) : SetRequest N → DecodedState
  | setManualOffset x y =>
      { d with manualOffsetX := toBits (arg F x), manualOffsetY := toBits (arg F y) }
  | setDeadzoneOverride centerOn centerVal rangeOn rangeVal =>
      { d with
        manualCenterDeadzone := (override F centerOn centerVal).map toBits
        manualRangeDeadzone := (override F rangeOn rangeVal).map toBits }
  | setNudgeSettings enter exit timeMs =>
      { d with
        nudgeEnterThreshold := toBits (arg F enter)
        nudgeExitThreshold := toBits (arg F exit)
        nudgeTimeMs := (uint32 timeMs).toNat }
  | setNudgeEnabled enabled => { d with nudgeEnabled := some enabled }
  | setInputMode mode => { d with inputMode := uint8 mode }

variable [MachineFloat F]

/-- The limits the firmware enforces. -/
def withinLimits : SetRequest N → Bool
  | setManualOffset x y => isFinite (arg F x) && isFinite (arg F y)
  | setDeadzoneOverride centerOn centerVal rangeOn rangeVal =>
      (override F centerOn centerVal).all (OmegaStore.overrideInRange · maxCenterDeadzone) &&
        (override F rangeOn rangeVal).all (OmegaStore.overrideInRange · maxRangeDeadzone)
  | setNudgeSettings enter exit _ =>
      (flt (ofRat 0) (arg F enter) && !flt (ofRat 1) (arg F enter)) &&
        (fle (ofRat 0) (arg F exit) && !flt (ofRat 1) (arg F exit))
  | setNudgeEnabled _ => true
  | setInputMode mode => uint8 mode ≤ 1

end Meaning

variable {F : Type*} [FloatBits F] [MachineFloat F]

omit [MachineFloat F] in
/-- The edit of a snapshot is the edit of what the console sees of it. -/
theorem ofSnapshot_edit (request : SetRequest N) (snap : OmegaStore F) :
    DecodedState.ofSnapshot ((request.edit F).apply snap)
        (some ((request.edit F).apply snap).settings.nudgeEnabled) =
      request.editDecoded F (.ofSnapshot snap (some snap.settings.nudgeEnabled)) := by
  cases request with
  | setManualOffset x y => rfl
  | setDeadzoneOverride centerOn centerVal rangeOn rangeVal => rfl
  | setNudgeSettings enter exit timeMs => rfl
  | setNudgeEnabled enabled => rfl
  | setInputMode mode =>
      simp only [edit, ConsoleEdit.apply, OmegaStore.setInputMode]
      split_ifs with hsame
      · simp [DecodedState.ofSnapshot, editDecoded, hsame]
      · rfl

omit [MachineFloat F] in
theorem sent_edit (request : SetRequest N) (snap : OmegaStore F) :
    DecodedState.sent ((request.edit F).apply snap)
        (some ((request.edit F).apply snap).settings.nudgeEnabled) =
      request.editDecoded F (.sent snap (some snap.settings.nudgeEnabled)) := by
  rw [DecodedState.sent, ofSnapshot_edit]
  cases request with
  | setManualOffset x y => rfl
  | setDeadzoneOverride centerOn centerVal rangeOn rangeVal => rfl
  | setNudgeSettings enter exit timeMs =>
      have hlt := (uint32 timeMs).toNat_lt
      have htime : (UInt32.ofInt ((uint32 timeMs).toNat : ℤ)).toNat = (uint32 timeMs).toNat := by
        rw [UInt32.ofInt, Int.emod_eq_of_lt (by omega) (by omega), UInt32.toNat_ofNat']
        omega
      simp only [edit, ConsoleEdit.apply, OmegaStore.setNudgeSettings, htime]
      rfl
  | setNudgeEnabled enabled => rfl
  | setInputMode mode =>
      simp only [edit, ConsoleEdit.apply, OmegaStore.setInputMode]
      split_ifs <;> rfl

omit [MachineFloat F] in
theorem holdTimeFits_edit (request : SetRequest N) {snap : OmegaStore F} (h : HoldTimeFits snap) :
    HoldTimeFits ((request.edit F).apply snap) := by
  cases request with
  | setManualOffset x y => exact h
  | setDeadzoneOverride centerOn centerVal rangeOn rangeVal => exact h
  | setNudgeSettings enter exit timeMs =>
      have hlt := (uint32 timeMs).toNat_lt
      simp only [HoldTimeFits, edit, ConsoleEdit.apply, OmegaStore.setNudgeSettings]
      omega
  | setNudgeEnabled enabled => exact h
  | setInputMode mode =>
      simp only [edit, ConsoleEdit.apply, OmegaStore.setInputMode]
      split_ifs
      · exact h
      · exact h

end SetRequest

/-! ## The handlers -/

section Handlers

variable {F N O R : Type*} [FloatBits F] [MachineFloat F] [JsNumber N]

omit [MachineFloat F] in
theorem getF32_putU32 (word : UInt32) (rest : List UInt8) :
    getF32 (putU32 word ++ rest) 0 = (ofBits word : F) := by
  rw [getF32, List.drop_zero, getU32_putU32]

theorem getU32_putU32_nil (word : UInt32) : getU32 (putU32 word) = word := by
  have h := getU32_putU32 word []
  rwa [List.append_nil] at h

variable (cfg : CalibrationService.Config F R) (l : Link F O R)

open SetRequest

theorem handleSetManualOffset_encode (x y : N) :
    l.handleSetManualOffset cfg (encodeSetManualOffset x y) =
      if (setManualOffset x y).withinLimits F then
        (l.setManualOffset cfg (arg F x) (arg F y)).succeed cfg 0
      else l.refuse cfg .invalidArgument "manual offset must be finite" := by
  have hx : (getF32 (encodeSetManualOffset x y) 0 : F) = arg F x := getF32_putU32 _ _
  have hy : (getF32 (encodeSetManualOffset x y) 4 : F) = arg F y :=
    congrArg ofBits (getU32_putU32_nil (float32 y))
  rw [Link.handleSetManualOffset, if_neg (by simp [encodeSetManualOffset]), hx, hy, withinLimits]
  cases hfx : isFinite (arg F x) <;> cases hfy : isFinite (arg F y) <;> simp [hfx, hfy]

theorem handleSetDeadzoneOverride_encode (centerOn : Bool) (centerVal : N) (rangeOn : Bool)
    (rangeVal : N) :
    ∃ context, l.handleSetDeadzoneOverride cfg
        (encodeSetDeadzoneOverride centerOn centerVal rangeOn rangeVal) =
      if (setDeadzoneOverride centerOn centerVal rangeOn rangeVal).withinLimits F then
        (l.setDeadzoneOverride cfg (override F centerOn centerVal)
          (override F rangeOn rangeVal)).succeed cfg 0
      else l.refuse cfg .invalidArgument context := by
  -- the payload read back: the flags and the two floats
  have hflags : (encodeSetDeadzoneOverride centerOn centerVal rangeOn rangeVal).getD 0 0 =
      (if centerOn then 0x01 else 0) ||| (if rangeOn then 0x02 else 0) := rfl
  have hcenter : (getF32 (encodeSetDeadzoneOverride centerOn centerVal rangeOn rangeVal) 1 : F) =
      ofBits (if centerOn then float32 centerVal else 0) := congrArg ofBits (getU32_putU32 _ _)
  have hrange : (getF32 (encodeSetDeadzoneOverride centerOn centerVal rangeOn rangeVal) 5 : F) =
      ofBits (if rangeOn then float32 rangeVal else 0) := congrArg ofBits (getU32_putU32_nil _)
  have hcenterOn : (((if centerOn then 0x01 else 0) ||| (if rangeOn then 0x02 else 0) : UInt8) &&&
      0x01 != 0) = centerOn := by cases centerOn <;> cases rangeOn <;> rfl
  have hrangeOn : (((if centerOn then 0x01 else 0) ||| (if rangeOn then 0x02 else 0) : UInt8) &&&
      0x02 != 0) = rangeOn := by cases centerOn <;> cases rangeOn <;> rfl
  rw [Link.handleSetDeadzoneOverride, if_neg (by simp [encodeSetDeadzoneOverride]), hflags, hcenter,
    hrange]
  dsimp only
  rw [hcenterOn, hrangeOn, withinLimits]
  -- refused for the first override that is out of range
  by_cases hbadCenter : (centerOn && !OmegaStore.overrideInRange
      (ofBits (if centerOn then float32 centerVal else 0) : F) maxCenterDeadzone) = true
  · refine ⟨"center deadzone override must be between 0 and 0.5", ?_⟩
    rw [if_pos hbadCenter, if_neg]
    cases centerOn <;> simp_all [override, arg]
  rw [if_neg hbadCenter]
  by_cases hbadRange : (rangeOn && !OmegaStore.overrideInRange
      (ofBits (if rangeOn then float32 rangeVal else 0) : F) maxRangeDeadzone) = true
  · refine ⟨"range deadzone override must be between 0 and 0.1", ?_⟩
    rw [if_pos hbadRange, if_neg]
    cases rangeOn <;> simp_all [override, arg]
  rw [if_neg hbadRange]
  refine ⟨"", ?_⟩
  have hlimits : ((override F centerOn centerVal).all
      (OmegaStore.overrideInRange · maxCenterDeadzone) &&
        (override F rangeOn rangeVal).all (OmegaStore.overrideInRange · maxRangeDeadzone)) =
          true := by
    cases centerOn <;> cases rangeOn <;> simp_all [override, arg]
  rw [if_pos hlimits]
  cases centerOn <;> cases rangeOn <;> rfl

theorem handleSetNudgeSettings_encode (enter exit timeMs : N) :
    ∃ context, l.handleSetNudgeSettings cfg (encodeSetNudgeSettings enter exit timeMs) =
      if (setNudgeSettings enter exit timeMs).withinLimits F then
        ({ l with
          store := l.store.setNudgeSettings (arg F enter) (arg F exit) (uint32 timeMs).toNat } :
            Link F O R).succeed cfg 0
      else l.refuse cfg .invalidArgument context := by
  have henter : (getF32 (encodeSetNudgeSettings enter exit timeMs) 0 : F) = arg F enter :=
    getF32_putU32 _ _
  have hexit : (getF32 (encodeSetNudgeSettings enter exit timeMs) 4 : F) = arg F exit :=
    congrArg ofBits (getU32_putU32 (float32 exit) _)
  have htime : getU32 ((encodeSetNudgeSettings enter exit timeMs).drop 8) = uint32 timeMs :=
    getU32_putU32_nil _
  rw [Link.handleSetNudgeSettings, if_neg (by simp [encodeSetNudgeSettings]), henter, hexit, htime,
    withinLimits]
  dsimp only
  by_cases hbadEnter : (!flt (ofRat 0) (arg F enter) || flt (ofRat 1) (arg F enter)) = true
  · refine ⟨"nudge enter threshold must be in (0, 1]", ?_⟩
    rw [if_pos hbadEnter, if_neg]
    cases hlow : flt (ofRat 0) (arg F enter) <;> simp_all
  rw [if_neg hbadEnter]
  by_cases hbadExit : (!fle (ofRat 0) (arg F exit) || flt (ofRat 1) (arg F exit)) = true
  · refine ⟨"nudge exit threshold must be in [0, 1]", ?_⟩
    rw [if_pos hbadExit, if_neg]
    cases hlow : fle (ofRat 0) (arg F exit) <;> simp_all
  rw [if_neg hbadExit]
  refine ⟨"", ?_⟩
  rw [if_pos]
  simp_all

omit [FloatBits F] [MachineFloat F] in
theorem handleSetNudgeEnabled_encode (enabled : Bool) :
    l.handleSetNudgeEnabled cfg (encodeSetNudgeEnabled enabled) =
      ({ l with store := l.store.setNudgeEnabled enabled } : Link F O R).succeed cfg 0 := by
  cases enabled <;> rfl

/-- A mode is set once the reply is queued; one that is active already is left alone. -/
theorem handleSetInputMode_encode (mode : N) :
    l.handleSetInputMode cfg (encodeSetInputMode mode) =
      if (setInputMode mode).withinLimits F then
        if l.store.settings.inputMode = ⟨uint8 mode⟩ then l.succeed cfg 0
        else ((l.holdOutput cfg true).defer (.setInputMode ⟨uint8 mode⟩)).succeed cfg 1
      else l.refuse cfg .invalidArgument "SET_INPUT_MODE needs u8 mode (0 or 1)" := by
  rw [encodeSetInputMode, Link.handleSetInputMode, withinLimits]
  by_cases hmode : uint8 mode ≤ 1
  · have hnot : ¬ 1 < uint8 mode := by simpa using hmode
    rw [if_neg hnot, if_pos (decide_eq_true hmode)]
  · have hlt : 1 < uint8 mode := by simpa using hmode
    rw [if_pos hlt, if_neg (by simpa using hmode)]

/-! ## A whole request -/

variable [OtaEngine O]

omit [MachineFloat F] [FloatBits F] in
/-- A dropped action leaves the store alone. -/
theorem runAfterReply_of_not_queued_store : (l.runAfterReply cfg false).2.store = l.store := by
  unfold Link.runAfterReply
  cases l.afterReply with
  | none => rfl
  | some action =>
      simp only [Bool.false_eq_true, ite_false]
      split
      · rfl
      · exact Link.holdOutput_store ..

/-- What a SET request is answered and leaves in the store, when nothing was
deferred before it. -/
structure Exchanged (request : SetRequest N) (now : Time) (sent : Bool) : Prop where
  applied : request.withinLimits F = true →
    (∃ value, (l.handleFrameLocked cfg request.msg.code request.encode now).1 =
        some (buildOk cfg.moduleId value)) ∧
      (l.handleFrame cfg request.msg.code request.encode now sent).2.store =
        if sent || !request.appliedAfterReply then (request.edit F).apply l.store else l.store
  refused : request.withinLimits F = false →
    (∃ context, (l.handleFrameLocked cfg request.msg.code request.encode now).1 =
        some (l.refuse cfg .invalidArgument context).1) ∧
      (l.handleFrame cfg request.msg.code request.encode now sent).2.store = l.store

variable {cfg l}

omit [JsNumber N] in
theorem handleFrameLocked_set (request : SetRequest N) (payload : List UInt8) (now : Time) :
    l.handleFrameLocked cfg request.msg.code payload now =
      l.handleRequest cfg request.msg payload now := by
  have hmsg : request.msg ∈ Msg.requests := by cases request <;> simp [msg, Msg.requests]
  rw [Link.handleFrameLocked, Msg.ofCode_code hmsg]

/-- A request that defers nothing, from what its handler does. -/
theorem exchanged_of_handler {request : SetRequest N} {now : Time} (accepted : Link F O R)
    (hafter : l.afterReply = none) (haccepted : accepted.afterReply = none)
    (hstore : accepted.store = (request.edit F).apply l.store)
    (hatOnce : request.appliedAfterReply = false)
    (hhandler : ∃ context, l.handleRequest cfg request.msg request.encode now =
      if request.withinLimits F then (some (buildOk cfg.moduleId 0), accepted)
      else (some (l.refuse cfg .invalidArgument context).1, l)) (sent : Bool) :
    Exchanged cfg l request now sent := by
  obtain ⟨context, hhandler⟩ := hhandler
  rw [← handleFrameLocked_set request request.encode now] at hhandler
  constructor
  · intro hlimits
    rw [if_pos hlimits] at hhandler
    refine ⟨⟨0, by rw [hhandler]⟩, ?_⟩
    rw [Link.handleFrame, hhandler, hatOnce, Bool.not_false, Bool.or_true, if_pos rfl]
    simp only [runAfterReply_of_none cfg _ haccepted, hstore]
  · intro hlimits
    rw [hlimits, if_neg (by decide)] at hhandler
    refine ⟨⟨context, by rw [hhandler]⟩, ?_⟩
    rw [Link.handleFrame, hhandler]
    simp only [runAfterReply_of_none cfg _ hafter]

theorem exchanged_setInputMode (hafter : l.afterReply = none) (mode : N) (now : Time)
    (sent : Bool) : Exchanged cfg l (setInputMode mode) now sent := by
  have hlocked : l.handleFrameLocked cfg (setInputMode mode).msg.code (setInputMode mode).encode
      now = (some (l.handleSetInputMode cfg (encodeSetInputMode mode)).1,
        (l.handleSetInputMode cfg (encodeSetInputMode mode)).2) :=
    handleFrameLocked_set (setInputMode mode) (encodeSetInputMode mode) now
  rw [handleSetInputMode_encode] at hlocked
  constructor
  · intro hlimits
    rw [if_pos hlimits] at hlocked
    by_cases hsame : l.store.settings.inputMode = ⟨uint8 mode⟩
    · rw [if_pos hsame] at hlocked
      refine ⟨⟨0, by rw [hlocked]; rfl⟩, ?_⟩
      have hedit : ((setInputMode mode).edit F).apply l.store = l.store := by
        simp [edit, ConsoleEdit.apply, OmegaStore.setInputMode, hsame]
      rw [Link.handleFrame, hlocked, hedit, ite_self]
      simp only [Link.succeed_snd, runAfterReply_of_none cfg _ hafter]
    · rw [if_neg hsame] at hlocked
      refine ⟨⟨1, by rw [hlocked]; rfl⟩, ?_⟩
      rw [Link.handleFrame, hlocked]
      cases sent with
      | true =>
          simp [Link.succeed, Link.runAfterReply, Link.defer, Link.setInputMode, edit,
            ConsoleEdit.apply, OmegaStore.setInputMode, hsame]
      | false =>
          have hdropped := runAfterReply_of_not_queued_store cfg
            ((l.holdOutput cfg true).defer (.setInputMode ⟨uint8 mode⟩))
          simpa [Link.succeed, appliedAfterReply, Link.defer] using hdropped
  · intro hlimits
    rw [hlimits, if_neg (by decide)] at hlocked
    refine ⟨⟨"SET_INPUT_MODE needs u8 mode (0 or 1)", by rw [hlocked]⟩, ?_⟩
    rw [Link.handleFrame, hlocked]
    simp only [Link.refuse_snd, runAfterReply_of_none cfg _ hafter]

/-- Every SET request, one lemma about its handler each. -/
theorem exchanged (hafter : l.afterReply = none) (request : SetRequest N) (now : Time)
    (sent : Bool) : Exchanged cfg l request now sent := by
  cases request with
  | setManualOffset x y =>
      refine exchanged_of_handler (l.setManualOffset cfg (arg F x) (arg F y))
        hafter hafter rfl rfl ⟨"manual offset must be finite", ?_⟩ sent
      change (some (l.handleSetManualOffset cfg (encodeSetManualOffset x y)).1,
        (l.handleSetManualOffset cfg (encodeSetManualOffset x y)).2) = _
      rw [handleSetManualOffset_encode]
      split <;> rfl
  | setDeadzoneOverride centerOn centerVal rangeOn rangeVal =>
      set payload := encodeSetDeadzoneOverride centerOn centerVal rangeOn rangeVal with hpayload
      obtain ⟨context, hhandler⟩ := handleSetDeadzoneOverride_encode cfg l centerOn centerVal
        rangeOn rangeVal
      refine exchanged_of_handler (l.setDeadzoneOverride cfg
        (override F centerOn centerVal) (override F rangeOn rangeVal))
        hafter hafter rfl rfl ⟨context, ?_⟩ sent
      change (some (l.handleSetDeadzoneOverride cfg payload).1,
        (l.handleSetDeadzoneOverride cfg payload).2) = _
      rw [hpayload, hhandler]
      split <;> rfl
  | setNudgeSettings enter exit timeMs =>
      obtain ⟨context, hhandler⟩ := handleSetNudgeSettings_encode cfg l enter exit timeMs
      refine exchanged_of_handler { l with
        store := l.store.setNudgeSettings (arg F enter) (arg F exit) (uint32 timeMs).toNat }
        hafter hafter rfl rfl ⟨context, ?_⟩ sent
      change (some (l.handleSetNudgeSettings cfg (encodeSetNudgeSettings enter exit timeMs)).1,
        (l.handleSetNudgeSettings cfg (encodeSetNudgeSettings enter exit timeMs)).2) = _
      rw [hhandler]
      split <;> rfl
  | setNudgeEnabled enabled =>
      refine exchanged_of_handler { l with
        store := l.store.setNudgeEnabled enabled } hafter hafter rfl rfl ⟨"", ?_⟩ sent
      change (some (l.handleSetNudgeEnabled cfg (encodeSetNudgeEnabled enabled)).1,
        (l.handleSetNudgeEnabled cfg (encodeSetNudgeEnabled enabled)).2) = _
      rw [handleSetNudgeEnabled_encode]
      rfl
  | setInputMode mode => exact exchanged_setInputMode hafter mode now sent

end Handlers

/-! ## Both sides -/

section Exchange

variable {F N O R : Type*} [FloatBits F] [MachineFloat F] [JsNumber N] [OtaEngine O]
  (cfg : CalibrationService.Config F R)

open SetRequest TransitionSystem

end Exchange

/-! ## The simulated service -/

/-- Whole numbers, as a console may send them. -/
instance : JsNumber ℤ where
  float32 z := toBits (z : ℚ)
  uint32 := UInt32.ofInt
  uint8 z := UInt8.ofNat (z % 256).toNat

end Console

end OmegaStick
