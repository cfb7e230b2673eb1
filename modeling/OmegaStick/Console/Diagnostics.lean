import OmegaStick.Console.Payloads

/-!
# DIAGNOSTICS, end to end

The firmware walks the resets from the newest back, under a byte budget and a
count of 255, and emits what it kept oldest first.  `Fits` says what the two
limits allow, `prefix_keptResets_iff` that the walk keeps everything they
allow, and `decodeResets_flatMap_encode` that the console reads the entries
back.
-/

namespace OmegaStick

/-! ## The longest run that fits -/

/-- The resets fit in a DIAGNOSTICS frame together, of which `used` bytes and
`kept` entries are taken. -/
def FitsIn (used kept : ℕ) (resets : List DiagnosticsReset) : Prop :=
  used + (resets.map DiagnosticsReset.entrySize).sum ≤ kMaxPayloadSize ∧
    kept + resets.length ≤ 255

instance (used kept : ℕ) (resets : List DiagnosticsReset) : Decidable (FitsIn used kept resets) :=
  inferInstanceAs (Decidable (_ ∧ _))

theorem fitsIn_cons {r : DiagnosticsReset} {older : List DiagnosticsReset} {used kept : ℕ} :
    FitsIn used kept (r :: older) ↔ FitsIn (used + r.entrySize) (kept + 1) older := by
  simp only [FitsIn, List.map_cons, List.sum_cons, List.length_cons]
  omega

theorem FitsIn.head {r : DiagnosticsReset} {older : List DiagnosticsReset} {used kept : ℕ}
    (h : FitsIn used kept (r :: older)) : FitsIn used kept [r] := by
  simp only [FitsIn, List.map_cons, List.map_nil, List.sum_cons, List.sum_nil,
    List.length_cons, List.length_nil] at h ⊢
  omega

/-- The walk stops at the first entry that does not fit. -/
theorem keptResets_cons_of_not_fits {r : DiagnosticsReset} {older : List DiagnosticsReset}
    {used kept : ℕ} (h : ¬ FitsIn used kept [r]) : keptResets (r :: older) used kept = [] := by
  rw [keptResets, if_pos]
  by_contra hroom
  refine h ?_
  simp only [FitsIn, List.map_cons, List.map_nil, List.sum_cons, List.sum_nil,
    List.length_cons, List.length_nil]
  omega

theorem keptResets_cons_of_fits {r : DiagnosticsReset} {older : List DiagnosticsReset}
    {used kept : ℕ} (h : FitsIn used kept [r]) :
    keptResets (r :: older) used kept = r :: keptResets older (used + r.entrySize) (kept + 1) := by
  simp only [FitsIn, List.map_cons, List.map_nil, List.sum_cons, List.sum_nil,
    List.length_cons, List.length_nil] at h
  rw [keptResets, if_neg (by omega)]

/-- **The walk keeps the longest run of the newest resets that fits**: a run of
the newest resets fits exactly when it is a part of what is kept. -/
theorem prefix_keptResets_iff {resets newest : List DiagnosticsReset} {used kept : ℕ}
    (hroom : FitsIn used kept []) :
    newest <+: keptResets resets used kept ↔ newest <+: resets ∧ FitsIn used kept newest := by
  induction resets generalizing newest used kept with
  | nil =>
      simp only [keptResets, List.prefix_nil]
      constructor
      · rintro rfl
        exact ⟨rfl, hroom⟩
      · exact And.left
  | cons r older ih =>
      cases newest with
      | nil => simp [hroom]
      | cons r' newest =>
          by_cases hr : FitsIn used kept [r]
          · rw [keptResets_cons_of_fits hr, List.cons_prefix_cons, List.cons_prefix_cons,
              ih (fitsIn_cons.mp hr), and_assoc]
            refine and_congr_right fun heq => ?_
            rw [heq, fitsIn_cons]
          · rw [keptResets_cons_of_not_fits hr]
            simp only [List.prefix_nil, reduceCtorEq, List.cons_prefix_cons, false_iff]
            rintro ⟨⟨rfl, -⟩, hfits⟩
            exact hr hfits.head

/-! ## What the payload carries -/

namespace DiagnosticsData

/-- The resets a DIAGNOSTICS payload carries, oldest first. -/
def carried (d : DiagnosticsData) : List DiagnosticsReset :=
  (keptResets d.resets.reverse 12 0).reverse

/-- The resets fit in one DIAGNOSTICS frame. -/
def Fits (resets : List DiagnosticsReset) : Prop := FitsIn 12 0 resets

theorem fits_reverse {resets : List DiagnosticsReset} : Fits resets.reverse ↔ Fits resets := by
  simp only [Fits, FitsIn, List.map_reverse, List.sum_reverse, List.length_reverse]

/-- A newest suffix fits exactly when all of it is carried. -/
theorem suffix_carried_iff {d : DiagnosticsData} {newest : List DiagnosticsReset} :
    newest <:+ d.carried ↔ newest <:+ d.resets ∧ Fits newest := by
  rw [← List.reverse_prefix, carried, List.reverse_reverse, prefix_keptResets_iff (by decide),
    List.reverse_prefix]
  exact and_congr_right fun _ => fits_reverse

theorem fits_carried (d : DiagnosticsData) : Fits d.carried :=
  (suffix_carried_iff.mp (List.suffix_refl _)).2

theorem buildDiagnosticsPayload_eq (d : DiagnosticsData) :
    buildDiagnosticsPayload d =
      d.sensorFault :: d.sensorFirstFault :: (putU32 d.sensorFaultCount ++
        (putU32 d.bootCount ++ UInt8.ofNat d.carried.length ::
          (d.carried.flatMap DiagnosticsReset.encode ++ [d.calibrationState]))) := by
  have hheader : ([d.sensorFault, d.sensorFirstFault] ++ putU32 d.sensorFaultCount ++
      putU32 d.bootCount).length + 1 + 1 = 12 := rfl
  simp only [buildDiagnosticsPayload, hheader]
  simp only [carried, List.append_assoc, List.cons_append, List.nil_append]

end DiagnosticsData

/-! ## What the console reads -/

namespace Console

/-- A reset as the console sees it. -/
def DecodedDiagnostics.reset (r : DiagnosticsReset) : DiagnosticsReset :=
  { r with name := r.clippedName }

open DecodedDiagnostics

theorem decodeResets_encode (i count : ℕ) (r : DiagnosticsReset) (rest : List UInt8) :
    decodeResets i (count + 1) (r.encode ++ rest) =
      match decodeResets (i + 1) count rest with
      | .error message => .error message
      | .ok (resets, rest) => .ok (reset r :: resets, rest) := by
  have hname : (UInt8.ofNat (min r.name.length 255)).toNat = r.clippedName.length := by
    rw [UInt8.toNat_ofNat', DiagnosticsReset.clippedName, List.length_take, min_comm]
    omega
  have hlong : ¬ (r.encode ++ rest).length < 7 := by
    rw [List.length_append, DiagnosticsReset.length_encode, DiagnosticsReset.entrySize]
    omega
  have hflag : (flagByte r.abnormal != 0) = r.abnormal := by cases r.abnormal <;> rfl
  rw [decodeResets, if_neg hlong, DiagnosticsReset.encode]
  simp only [List.append_assoc, u32_putU32, List.cons_append, List.nil_append, u8_cons, hname,
    List.length_append, List.drop_left, List.take_left, hflag]
  rw [if_neg (by omega)]
  rfl

theorem decodeResets_flatMap_encode (resets : List DiagnosticsReset) (rest : List UInt8) :
    ∀ i, decodeResets i resets.length (resets.flatMap DiagnosticsReset.encode ++ rest) =
      .ok (resets.map reset, rest) := by
  induction resets with
  | nil => intro i; rfl
  | cons r resets ih =>
      intro i
      rw [List.length_cons, List.flatMap_cons, List.append_assoc, decodeResets_encode, ih]
      rfl

/-- **DIAGNOSTICS, for any number of resets and names of any length.** The
payload fits in a frame, it carries the longest newest suffix of the resets
that does, and the console decodes exactly those, with the header fields and
the calibration state. -/
theorem diagnostics_exchange (d : DiagnosticsData) :
    (buildDiagnosticsPayload d).length ≤ kMaxPayloadSize ∧
      (∀ newest, newest <:+ d.carried ↔ newest <:+ d.resets ∧ DiagnosticsData.Fits newest) ∧
      decodeDiagnostics (buildDiagnosticsPayload d) =
        .ok ⟨d.sensorFault, d.sensorFirstFault, d.sensorFaultCount, d.bootCount,
          d.carried.map reset, some d.calibrationState⟩ := by
  refine ⟨length_buildDiagnosticsPayload_le d, fun _ => DiagnosticsData.suffix_carried_iff, ?_⟩
  have hcount : (UInt8.ofNat d.carried.length).toNat = d.carried.length := by
    have hle : 0 + d.carried.length ≤ 255 := d.fits_carried.2
    rw [UInt8.toNat_ofNat']
    omega
  have hlong : ¬ (buildDiagnosticsPayload d).length < 11 := by
    simp only [DiagnosticsData.buildDiagnosticsPayload_eq, List.length_cons, List.length_append,
      length_putU32]
    omega
  rw [decodeDiagnostics, if_neg hlong, DiagnosticsData.buildDiagnosticsPayload_eq]
  simp only [u8_cons, u32_putU32, hcount, decodeResets_flatMap_encode]
  rfl

end Console

end OmegaStick
