import OmegaStick.Firmware.FlashFile
import OmegaStick.Firmware.FlashRuns

/-!
# What a restart keeps

A version, project, date or time is any text of an uploaded image, and one that holds a
newline leaves further lines in the file.  `Undisturbed` says that none of them tells
something else of a key whose own line stands before it; `restart_restores_iff` says that
this is exactly when the file gives the slots back.

A slot without an image keeps an all-zero descriptor, which the file does not give back:
it is no descriptor (`EspAppDesc.Valid`), and nothing reads it.
-/

namespace OmegaStick

open DecimalText (isDigit takeSign)
open KeyValueText
open TextFields (decimal)

/-! ## Descriptors -/

namespace EspAppDesc

/-- The magic word is there, and every character array is terminated. -/
structure Valid (d : EspAppDesc) : Prop where
  magic : d.magicWord = kAppDescMagic
  terminated : ∀ f ∈ CharField.all, d.bytes[f.last]? = some 0

instance (d : EspAppDesc) : Decidable d.Valid :=
  decidable_of_iff (d.magicWord = kAppDescMagic ∧ ∀ f ∈ CharField.all, d.bytes[f.last]? = some 0)
    ⟨fun h => ⟨h.1, h.2⟩, fun h => ⟨h.magic, h.terminated⟩⟩

/-- The magic word is the first four bytes. -/
theorem magicWord_eq {d e : EspAppDesc} (h : d.bytes.take 4 = e.bytes.take 4) :
    d.magicWord = e.magicWord := by
  have hget (d : EspAppDesc) (k : ℕ) (hk : k < 4) :
    d.bytes.getD k 0 = (d.bytes.take 4).getD k 0 := by
    rw [List.getD_eq_getElem?_getD, List.getD_eq_getElem?_getD, List.getElem?_take_of_lt hk]
  simp only [magicWord, getU32]
  rw [hget d 0 (by omega), hget d 1 (by omega), hget d 2 (by omega), hget d 3 (by omega),
    hget e 0 (by omega), hget e 1 (by omega), hget e 2 (by omega), hget e 3 (by omega), h]

/-- The fields start behind the magic word. -/
theorem offset_of_mem {f : CharField} (h : f ∈ CharField.all) : 4 ≤ f.offset := by
  simp only [CharField.all, List.mem_cons, List.not_mem_nil, or_false] at h
  rcases h with rfl | rfl | rfl | rfl | rfl <;> decide

/-- Two fields overlap only when they are the same one. -/
theorem last_of_mem {f g : CharField} (hf : f ∈ CharField.all) (hg : g ∈ CharField.all)
    (hlow : f.offset ≤ g.last) (hhigh : g.last < f.offset + f.size) : g.last = f.last := by
  simp only [CharField.all, List.mem_cons, List.not_mem_nil, or_false] at hf hg
  rcases hf with rfl | rfl | rfl | rfl | rfl <;> rcases hg with rfl | rfl | rfl | rfl | rfl <;>
    first
      | rfl
      | exact absurd hlow (by decide)
      | exact absurd hhigh (by decide)

theorem last_lt {f : CharField} : f.last < appDescSize := by
  have hpos := f.pos
  have hfits := f.fits
  rw [CharField.last]
  omega

/-! ### Terminators -/

theorem terminate_of_valid {d : EspAppDesc} (h : d.Valid) : d.terminate = d := by
  have hall : ∀ fields : List CharField, (∀ f ∈ fields, f ∈ CharField.all) →
      fields.foldl (fun d f => d.setByte f.last 0) d = d := by
    intro fields hfields
    induction fields with
    | nil => rfl
    | cons f rest ih =>
        obtain ⟨hf, hrest⟩ := List.forall_mem_cons.mp hfields
        have hsame : d.setByte f.last 0 = d := by
          obtain ⟨bytes, hlength⟩ := d
          have hget := h.terminated f hf
          obtain ⟨hlt, hzero⟩ := List.getElem?_eq_some_iff.mp hget
          simp only [setByte, EspAppDesc.mk.injEq]
          conv_lhs => rw [← hzero]
          exact List.set_getElem_self hlt
        rw [List.foldl_cons, hsame]
        exact ih hrest
  exact hall _ fun _ hf => hf

/-- Setting terminators keeps the magic word and every terminator that is there. -/
theorem foldl_setByte (fields : List CharField) (hfields : ∀ f ∈ fields, f ∈ CharField.all)
    (d : EspAppDesc) :
    (fields.foldl (fun d f => d.setByte f.last 0) d).magicWord = d.magicWord ∧
      ∀ g : CharField, g ∈ fields ∨ d.bytes[g.last]? = some 0 →
        (fields.foldl (fun d f => d.setByte f.last 0) d).bytes[g.last]? = some 0 := by
  induction fields generalizing d with
  | nil => exact ⟨rfl, fun g hg => hg.resolve_left List.not_mem_nil⟩
  | cons f rest ih =>
      obtain ⟨hf, hrest⟩ := List.forall_mem_cons.mp hfields
      obtain ⟨hmagic, hzero⟩ := ih hrest (d.setByte f.last 0)
      have hoffset := offset_of_mem hf
      have hpos := f.pos
      have hset : (d.setByte f.last 0).magicWord = d.magicWord := by
        refine magicWord_eq ?_
        rw [setByte, List.take_set_of_le]
        rw [CharField.last]
        omega
      refine ⟨hmagic.trans hset, fun g hg => hzero g ?_⟩
      have hget : (d.setByte f.last 0).bytes[g.last]? =
          if f.last = g.last then some 0 else d.bytes[g.last]? := by
        rw [setByte, List.getElem?_set]
        split_ifs with heq hlt
        · rfl
        · exact absurd (d.length_eq ▸ last_lt) hlt
        · rfl
      rw [hget]
      rcases hg with hg | hg
      · rcases List.mem_cons.mp hg with rfl | hg
        · exact .inr (if_pos rfl)
        · exact .inl hg
      · refine .inr ?_
        split_ifs
        · rfl
        · exact hg

theorem valid_terminate {d : EspAppDesc} (h : d.magicWord = kAppDescMagic) : d.terminate.Valid := by
  obtain ⟨hmagic, hzero⟩ := foldl_setByte CharField.all (fun _ hf => hf) d
  exact ⟨hmagic.trans h, fun f hf => hzero f (.inl hf)⟩

theorem valid_of_parseImage {image : Bytes} {d : EspAppDesc} (h : parseImage image = some d) :
    d.Valid := by
  unfold parseImage at h
  split_ifs at h
  dsimp only at h
  split_ifs at h with hmagic
  obtain rfl := Option.some.inj h
  exact valid_terminate (not_not.mp hmagic)

/-! ### `make_desc` -/

theorem padded_last {cap : ℕ} (hcap : 0 < cap) (s : Bytes) : (padded cap s)[cap - 1]? = some 0 := by
  have hlength : (s.take (cap - 1)).length ≤ cap - 1 := by
    rw [List.length_take]
    omega
  rw [padded, List.getElem?_append_right hlength, List.getElem?_replicate]
  exact if_pos (by omega)

theorem Valid.copyStr {d : EspAppDesc} (h : d.Valid) {f : CharField} (hf : f ∈ CharField.all)
    (s : Bytes) : (d.copyStr f s).Valid := by
  have hoffset := offset_of_mem hf
  have hfits := f.fits
  have hlength := d.length_eq
  have htake : (d.bytes.take f.offset).length = f.offset := by
    rw [List.length_take, d.length_eq]
    omega
  constructor
  · rw [← h.magic]
    refine magicWord_eq ?_
    rw [EspAppDesc.copyStr, List.take_append_of_le_length (by rw [htake]; exact hoffset),
      List.take_take, Nat.min_eq_left hoffset]
  · intro g hg
    have hzero := h.terminated g hg
    rw [EspAppDesc.copyStr]
    by_cases hlow : g.last < f.offset
    · rw [List.getElem?_append_left (by rw [htake]; exact hlow), List.getElem?_take_of_lt hlow]
      exact hzero
    rw [List.getElem?_append_right (by rw [htake]; exact not_lt.mp hlow), htake]
    by_cases hhigh : g.last < f.offset + f.size
    · have hlast := last_of_mem hf hg (not_lt.mp hlow) hhigh
      have hindex : g.last - f.offset = f.size - 1 := by
        rw [hlast, CharField.last]
        have := f.pos
        omega
      rw [hindex, List.getElem?_append_left (by rw [length_padded]; have := f.pos; omega)]
      exact padded_last f.pos s
    · rw [List.getElem?_append_right (by rw [length_padded]; omega), length_padded,
        List.getElem?_drop]
      have hindex : f.offset + f.size + (g.last - f.offset - f.size) = g.last := by omega
      rw [hindex]
      exact hzero

theorem valid_makeDesc (version project : Bytes) : (makeDesc version project).Valid := by
  have hzero : (setMagic default).Valid := by decide +kernel
  exact ((((hzero.copyStr (by simp [CharField.all]) _).copyStr (by simp [CharField.all]) _).copyStr
    (by simp [CharField.all]) _).copyStr (by simp [CharField.all]) _).copyStr
    (by simp [CharField.all]) _

theorem valid_legacyDesc (version project : Bytes) (date time : Option Bytes) :
    (legacyDesc version project date time).Valid := by
  have hdate : (date.elim (makeDesc version project)
      ((makeDesc version project).copyStr .date)).Valid := by
    cases date with
    | none => exact valid_makeDesc version project
    | some s => exact (valid_makeDesc version project).copyStr (by simp [CharField.all]) s
  cases time with
  | none => exact hdate
  | some s => exact hdate.copyStr (by simp [CharField.all]) s

/-! ### Hexadecimal -/

theorem nibble_hexDigit : ∀ d < 16, nibble (hexDigit d) = some d := by decide

theorem unhex_toHex (bytes : Bytes) :
    unhex (bytes.flatMap fun b => [hexDigit (b.toNat / 16), hexDigit (b.toNat % 16)]) =
      some bytes := by
  induction bytes with
  | nil => rfl
  | cons b rest ih =>
      have hb := b.toNat_lt
      have hvalue : b.toNat / 16 * 16 + b.toNat % 16 = b.toNat := by omega
      rw [List.flatMap_cons, List.cons_append, List.cons_append, List.nil_append, unhex,
        nibble_hexDigit _ (by omega), nibble_hexDigit _ (by omega), ih]
      simp [hvalue]

theorem length_toHex (d : EspAppDesc) : d.toHex.length = appDescSize * 2 := by
  have hpairs : ∀ bytes : Bytes, (bytes.flatMap fun b =>
      [hexDigit (b.toNat / 16), hexDigit (b.toNat % 16)]).length = bytes.length * 2 := by
    intro bytes
    rw [List.length_flatMap]
    simp
  rw [toHex, hpairs, d.length_eq]

/-- What was written comes back, when it is a descriptor. -/
theorem fromHex_toHex (d : EspAppDesc) :
    fromHex d.toHex = if d.magicWord ≠ kAppDescMagic then none else some d.terminate := by
  rw [fromHex, if_neg (not_not.mpr (length_toHex d)), toHex, unhex_toHex]
  dsimp only
  rw [dif_pos d.length_eq]

theorem valid_of_fromHex {hex : Bytes} {d : EspAppDesc} (h : fromHex hex = some d) : d.Valid := by
  unfold fromHex at h
  split_ifs at h
  split at h
  · cases h
  · split_ifs at h
    dsimp only at h
    split_ifs at h with hmagic
    obtain rfl := Option.some.inj h
    exact valid_terminate (not_not.mp hmagic)

end EspAppDesc

/-! ## What is read of the own lines -/

section Readers

attribute [local instance] Flash.neZero_two in
/-- A slot number, with what a number that does not parse counts as. -/
def readSlot (dflt : ℕ) (v : Bytes) : Fin 2 := if (stoi v).getD dflt = 1 then 1 else 0

def readFlag (v : Bytes) : Bool := (stoi v).getD 0 ≠ 0

def readState (v : Bytes) : ℤ := (stoi v).getD (-1)

def readNextImage (v : Bytes) : NextImage := (parseNextImage v).getD .ok

theorem readSlot_decimal (dflt : ℕ) (i : Fin 2) : readSlot dflt (decimal i) = i := by
  have hread : ∀ i : Fin 2, stoi (decimal i) = some (i : ℤ) := by decide +kernel
  rw [readSlot, hread, Option.getD_some]
  revert i
  decide

theorem readFlag_flagText : ∀ b, readFlag (flagText b) = b := by decide +kernel

theorem readState_intText (state : ImgState) : readState (intText state.code) = state.code := by
  cases state <;> decide +kernel

theorem readNextImage_name (behavior : NextImage) :
    readNextImage (ascii behavior.name) = behavior := by
  cases behavior <;> decide +kernel

/-! The lines of everything but the texts hold no newline. -/

theorem newline_notMem_decimal (n : ℕ) : 10 ∉ decimal n := TextFields.notMem_decimal rfl

theorem newline_notMem_flagText : ∀ b, 10 ∉ flagText b := by decide +kernel

theorem newline_notMem_intText (z : ℤ) : 10 ∉ intText z := by
  rw [intText, List.mem_append, not_or]
  refine ⟨?_, newline_notMem_decimal _⟩
  split_ifs <;> decide

theorem newline_notMem_name (behavior : NextImage) : 10 ∉ ascii behavior.name := by
  cases behavior <;> decide +kernel

theorem newline_notMem_toHex (d : EspAppDesc) : 10 ∉ d.toHex := by
  have hdigit : ∀ n < 16, EspAppDesc.hexDigit n ≠ 10 := by decide
  rw [EspAppDesc.toHex, List.mem_flatMap]
  rintro ⟨b, -, hb⟩
  have hlt := b.toNat_lt
  rcases List.mem_cons.mp hb with h | h
  · exact hdigit _ (by omega) h.symm
  · exact hdigit _ (by omega) (List.mem_singleton.mp h).symm

end Readers

/-! ## The strays -/

/-- What some texts of a slot leave behind their lines. -/
def Slot.straysOf (slot : Slot EspAppDesc) (fields : List CharField) : List Entry :=
  fields.flatMap fun f => strays (slot.desc.text f)

/-- The texts of a slot, in the order of the file. -/
def CharField.written : List CharField := [.version, .projectName, .date, .time]

namespace Flash

variable {flash : Flash EspAppDesc}

attribute [local instance] Flash.neZero_two in
/-- The strays behind all lines of slot `i`. -/
def straysAfter (flash : Flash EspAppDesc) (i : Fin 2) : List Entry :=
  if i = 0 then (flash.slots 1).straysOf CharField.written else []

/-- The strays behind the first lines of slot `i`. -/
def straysFrom (flash : Flash EspAppDesc) (i : Fin 2) : List Entry :=
  (flash.slots i).straysOf CharField.written ++ flash.straysAfter i

/-- Whatever a stray line says of a key is what its own line says. -/
def Says {α : Type} (strays : List Entry) (key : Bytes) (read : Bytes → α) (own : α) : Prop :=
  ∀ v, lookup key strays = some v → read v = own

/-- No stray line tells something else of a key whose line stands before it. -/
structure Undisturbed (flash : Flash EspAppDesc) : Prop where
  running : Says (flash.straysFrom 0) (ascii "running") (readSlot 0) flash.running
  boot : Says (flash.straysFrom 0) (ascii "boot") (readSlot flash.running) flash.boot
  nextImage : Says (flash.straysFrom 0) (ascii "next_image") readNextImage flash.nextImage
  hasImage i : Says (flash.straysFrom i) (slotKey i "has") readFlag (flash.slots i).hasImage
  native i : Says (flash.straysFrom i) (slotKey i "native") readFlag (flash.slots i).native
  isPartial i : Says (flash.straysFrom i) (slotKey i "partial") readFlag (flash.slots i).isPartial
  state i : Says (flash.straysFrom i) (slotKey i "state") readState (flash.slots i).state.code
  behavior i :
    Says (flash.straysFrom i) (slotKey i "behavior") readNextImage (flash.slots i).behavior

/-- A text of slot `i`, whose fields from it on are given, as it is read. -/
def readText (flash : Flash EspAppDesc) (i : Fin 2) (f : CharField) (name : String)
    (fields : List CharField) : Bytes :=
  (lookup (slotKey i name) ((flash.slots i).straysOf fields ++ flash.straysAfter i)).getD
    (firstLine ((flash.slots i).desc.text f))

/-- The descriptor slot `i` has without its whole one. -/
def readTexts (flash : Flash EspAppDesc) (i : Fin 2) : EspAppDesc :=
  legacyDesc (flash.readText i .version "version" [.version, .projectName, .date, .time])
    (flash.readText i .projectName "project" [.projectName, .date, .time])
    (some (flash.readText i .date "date" [.date, .time]))
    (some (flash.readText i .time "time" [.time]))

/-- A stray line for the descriptor of slot `i` takes nothing from it: what is read then
is the descriptor that the texts give. -/
def KeepsDesc (flash : Flash EspAppDesc) (i : Fin 2) : Prop :=
  Says (flash.straysAfter i) (slotKey i "desc")
    (fun v => (EspAppDesc.fromHex v).getD (flash.readTexts i)) (flash.slots i).desc

/-! ## What is read under each key -/

section Lookup

theorem allStrays_append (first second : List Entry) :
    allStrays (first ++ second) = allStrays first ++ allStrays second := List.flatMap_append ..

/-- The keys of the file. -/
theorem keys_entries (flash : Flash EspAppDesc) :
    flash.entries.map Prod.fst =
      [ascii "running", ascii "boot", ascii "next_image"] ++
        (["has", "native", "partial", "state", "behavior", "version", "project", "date", "time",
          "desc"].map (slotKey 0) ++
        ["has", "native", "partial", "state", "behavior", "version", "project", "date", "time",
          "desc"].map (slotKey 1)) := rfl

theorem plainKeys_entries (flash : Flash EspAppDesc) : PlainKeys flash.entries := by
  intro e he
  have hkey := List.mem_map_of_mem (f := Prod.fst) he
  rw [keys_entries] at hkey
  revert hkey
  generalize e.1 = key
  revert key
  decide +kernel

theorem nodup_entries (flash : Flash EspAppDesc) : (flash.entries.map Prod.fst).Nodup := by
  rw [keys_entries]
  decide +kernel

theorem lookup_save {before after : List Entry} {key value : Bytes}
    (h : flash.entries = before ++ (key, value) :: after) :
    lookup key (assignments flash.save) =
      some ((lookup key (allStrays ((key, value) :: after))).getD (firstLine value)) := by
  have hnodup := flash.nodup_entries
  rw [h, List.map_append, List.map_cons, List.nodup_append] at hnodup
  rw [save, h]
  refine lookup_entries (h ▸ flash.plainKeys_entries) fun e he heq => ?_
  have hhead := (List.nodup_cons.mp hnodup.2.1).1
  have hkey : e.1 ∈ after.map Prod.fst := List.mem_map_of_mem he
  exact hhead (heq ▸ hkey)

/-- From the fifth line of a slot on its texts follow, and before it nothing is left
behind. -/
theorem allStrays_drop (slot : Slot EspAppDesc) (i : Fin 2) {k : ℕ} (hk : k < 10) :
    allStrays ((slot.entries i).drop k) = slot.straysOf (CharField.written.drop (k - 5)) := by
  interval_cases k <;>
    simp [Slot.entries, allStrays, Slot.straysOf, CharField.written,
      strays_eq_nil (newline_notMem_flagText _), strays_eq_nil (newline_notMem_intText _),
      strays_eq_nil (newline_notMem_name _), strays_eq_nil (newline_notMem_toHex _)]

theorem allStrays_slot (slot : Slot EspAppDesc) (i : Fin 2) :
    allStrays (slot.entries i) = slot.straysOf CharField.written :=
  allStrays_drop slot i (k := 0) (by decide)

/-- A line of a slot, by its place. -/
theorem lookup_slot (flash : Flash EspAppDesc) (i : Fin 2) {k : ℕ} {key value : Bytes}
    (h : ((flash.slots i).entries i)[k]? = some (key, value)) :
    lookup key (assignments flash.save) =
      some ((lookup key ((flash.slots i).straysOf (CharField.written.drop (k - 5)) ++
        flash.straysAfter i)).getD (firstLine value)) := by
  obtain ⟨before, after, hsplit, hstrays⟩ : ∃ before after,
      (flash.slots i).entries i = before ++ (key, value) :: after ∧
        allStrays ((key, value) :: after) =
          (flash.slots i).straysOf (CharField.written.drop (k - 5)) := by
    obtain ⟨hk, hget⟩ := List.getElem?_eq_some_iff.mp h
    have hdrop : ((flash.slots i).entries i).drop k =
        (key, value) :: ((flash.slots i).entries i).drop (k + 1) := by
      rw [List.drop_eq_getElem_cons hk, hget]
    refine ⟨((flash.slots i).entries i).take k, ((flash.slots i).entries i).drop (k + 1), ?_, ?_⟩
    · rw [← hdrop, List.take_append_drop]
    · rw [← hdrop, allStrays_drop (flash.slots i) i hk]
  have hcases : ∀ i : Fin 2, i = 0 ∨ i = 1 := by decide
  rcases hcases i with rfl | rfl
  · have hentries : flash.entries = ((ascii "running", decimal flash.running) ::
        (ascii "boot", decimal flash.boot) ::
          (ascii "next_image", ascii flash.nextImage.name) :: before) ++
        (key, value) :: (after ++ (flash.slots 1).entries 1) := by
      rw [entries, hsplit]
      simp
    rw [lookup_save hentries, ← List.cons_append, allStrays_append, hstrays, allStrays_slot]
    rfl
  · have hentries : flash.entries = ((ascii "running", decimal flash.running) ::
        (ascii "boot", decimal flash.boot) ::
          (ascii "next_image", ascii flash.nextImage.name) ::
            ((flash.slots 0).entries 0 ++ before)) ++ (key, value) :: after := by
      rw [entries, hsplit]
      simp
    rw [lookup_save hentries, hstrays, straysAfter, if_neg (by decide), List.append_nil]

/-- A line before the slots, by what it stands before. -/
theorem lookup_header (before after : List Entry) {key value : Bytes}
    (h : flash.entries = before ++ (key, value) :: (after ++
      ((flash.slots 0).entries 0 ++ (flash.slots 1).entries 1)))
    (hvalue : 10 ∉ value) (hafter : allStrays after = []) :
    lookup key (assignments flash.save) =
      some ((lookup key (flash.straysFrom 0)).getD value) := by
  rw [lookup_save h, allStrays_cons, strays_eq_nil hvalue, firstLine_eq_self hvalue,
    allStrays_append, hafter, allStrays_append, allStrays_slot, allStrays_slot]
  rfl

end Lookup

/-! ## What is loaded -/

section Load

theorem says_iff {α : Type} (read : Bytes → α) {strays : List Entry} {key v : Bytes} {own : α}
    (hown : read v = own) :
    read ((lookup key strays).getD v) = own ↔ Says strays key read own := by
  unfold Says
  cases lookup key strays with
  | none => exact ⟨fun _ => nofun, fun _ => hown⟩
  | some w => exact ⟨fun h v hv => Option.some.inj hv ▸ h, fun h => h w rfl⟩

/-- A line of a slot before its texts. -/
theorem lookup_plain (flash : Flash EspAppDesc) (i : Fin 2) {k : ℕ} {key value : Bytes}
    (h : ((flash.slots i).entries i)[k]? = some (key, value)) (hk : k ≤ 5)
    (hvalue : 10 ∉ value) :
    lookup key (assignments flash.save) = some ((lookup key (flash.straysFrom i)).getD value) := by
  rw [lookup_slot flash i h, Nat.sub_eq_zero_of_le hk, firstLine_eq_self hvalue]
  rfl

theorem getFlag_iff (i : Fin 2) {k : ℕ} {key : Bytes} {b : Bool}
    (h : ((flash.slots i).entries i)[k]? = some (key, flagText b)) (hk : k ≤ 5) :
    decide (geti (assignments flash.save) key 0 ≠ 0) = b ↔
      Says (flash.straysFrom i) key readFlag b := by
  rw [geti_of_lookup (lookup_plain flash i h hk (newline_notMem_flagText b)), ← readFlag]
  exact says_iff _ (readFlag_flagText b)

theorem hasImage_iff (i : Fin 2) :
    (loadSlot (assignments flash.save) i).hasImage = (flash.slots i).hasImage ↔
      Says (flash.straysFrom i) (slotKey i "has") readFlag (flash.slots i).hasImage := by
  rw [loadSlot_hasImage]
  exact getFlag_iff i (k := 0) rfl (by decide)

theorem native_iff (i : Fin 2) :
    (loadSlot (assignments flash.save) i).native = (flash.slots i).native ↔
      Says (flash.straysFrom i) (slotKey i "native") readFlag (flash.slots i).native := by
  rw [loadSlot_native]
  exact getFlag_iff i (k := 1) rfl (by decide)

theorem isPartial_iff (i : Fin 2) :
    (loadSlot (assignments flash.save) i).isPartial = (flash.slots i).isPartial ↔
      Says (flash.straysFrom i) (slotKey i "partial") readFlag (flash.slots i).isPartial := by
  rw [loadSlot_isPartial]
  exact getFlag_iff i (k := 2) rfl (by decide)

theorem state_iff (i : Fin 2) :
    (loadSlot (assignments flash.save) i).state = (flash.slots i).state.code ↔
      Says (flash.straysFrom i) (slotKey i "state") readState (flash.slots i).state.code := by
  have hline := lookup_plain flash i (k := 3) rfl (by decide)
    (newline_notMem_intText _)
  rw [loadSlot_state, geti_of_lookup hline, ← readState]
  exact says_iff _ (readState_intText _)

theorem behavior_iff (i : Fin 2) :
    (loadSlot (assignments flash.save) i).behavior = (flash.slots i).behavior ↔
      Says (flash.straysFrom i) (slotKey i "behavior") readNextImage
        (flash.slots i).behavior := by
  have hline := lookup_plain flash i (k := 4) rfl (by decide) (newline_notMem_name _)
  rw [loadSlot_behavior, getNextImage_of_lookup hline, ← readNextImage]
  exact says_iff _ (readNextImage_name _)

/-- The descriptor that is loaded. -/
theorem desc_eq (i : Fin 2) :
    (loadSlot (assignments flash.save) i).desc =
      (EspAppDesc.fromHex ((lookup (slotKey i "desc") (flash.straysAfter i)).getD
        (flash.slots i).desc.toHex)).getD (flash.readTexts i) := by
  have hdesc : lookup (slotKey i "desc") (assignments flash.save) =
      some ((lookup (slotKey i "desc") (flash.straysAfter i)).getD (flash.slots i).desc.toHex) := by
    have hline := lookup_slot flash i (k := 9) rfl
    rw [firstLine_eq_self (newline_notMem_toHex _)] at hline
    exact hline
  rw [loadSlot_desc, hdesc, lookup_slot flash i (k := 5) rfl,
    lookup_slot flash i (k := 6) rfl, lookup_slot flash i (k := 7) rfl,
    lookup_slot flash i (k := 8) rfl, Option.bind_some]
  rfl

/-- Whatever is loaded is a descriptor. -/
theorem valid_loadSlot (kv : List Entry) (i : Fin 2) : (loadSlot kv i).desc.Valid := by
  rw [loadSlot_desc]
  cases hread : (lookup (slotKey i "desc") kv).bind EspAppDesc.fromHex with
  | none => exact EspAppDesc.valid_legacyDesc ..
  | some d =>
      obtain ⟨hex, -, hhex⟩ := Option.bind_eq_some_iff.mp hread
      exact EspAppDesc.valid_of_fromHex hhex

theorem desc_iff (i : Fin 2) (hvalid : (flash.slots i).desc.Valid) :
    (loadSlot (assignments flash.save) i).desc = (flash.slots i).desc ↔ flash.KeepsDesc i := by
  rw [desc_eq]
  refine says_iff (fun v => (EspAppDesc.fromHex v).getD (flash.readTexts i)) ?_
  rw [EspAppDesc.fromHex_toHex, if_neg (not_not.mpr hvalid.magic),
    EspAppDesc.terminate_of_valid hvalid]
  rfl

/-- What the file of a flash is loaded as, up to what is in the slots. -/
theorem loadFlash_save (flash : Flash EspAppDesc) :
    ∃ loaded, loadFlash flash.save = some loaded ∧
      loaded.slots = loadSlot (assignments flash.save) ∧
      (loaded.running = flash.running ↔
        Says (flash.straysFrom 0) (ascii "running") (readSlot 0) flash.running) ∧
      (loaded.running = flash.running → (loaded.boot = flash.boot ↔
        Says (flash.straysFrom 0) (ascii "boot") (readSlot flash.running) flash.boot)) ∧
      (loaded.nextImage = flash.nextImage ↔
        Says (flash.straysFrom 0) (ascii "next_image") readNextImage flash.nextImage) := by
  -- a line of the header says what was saved unless a stray line says it again
  have hrunning : lookup (ascii "running") (assignments flash.save) =
      some ((lookup (ascii "running") (flash.straysFrom 0)).getD (decimal flash.running)) := by
    refine lookup_header [] [(ascii "boot", decimal flash.boot),
      (ascii "next_image", ascii flash.nextImage.name)] rfl (newline_notMem_decimal _) ?_
    simp [allStrays, strays_eq_nil (newline_notMem_decimal _),
      strays_eq_nil (newline_notMem_name _)]
  have hboot : lookup (ascii "boot") (assignments flash.save) =
      some ((lookup (ascii "boot") (flash.straysFrom 0)).getD (decimal flash.boot)) := by
    refine lookup_header [(ascii "running", decimal flash.running)]
      [(ascii "next_image", ascii flash.nextImage.name)] rfl
      (newline_notMem_decimal _) ?_
    simp [allStrays, strays_eq_nil (newline_notMem_name _)]
  have hnext : lookup (ascii "next_image") (assignments flash.save) =
      some ((lookup (ascii "next_image") (flash.straysFrom 0)).getD
        (ascii flash.nextImage.name)) :=
    lookup_header [(ascii "running", decimal flash.running),
      (ascii "boot", decimal flash.boot)] [] rfl (newline_notMem_name _) rfl
  unfold loadFlash
  dsimp only
  rw [hrunning, if_neg (Option.some_ne_none _)]
  refine ⟨_, rfl, rfl, ?_, fun hsame => ?_, ?_⟩
  · have hread := geti_of_lookup hrunning 0
    dsimp only
    rw [hread]
    exact says_iff (readSlot 0) (readSlot_decimal 0 _)
  · have hread := geti_of_lookup hboot (flash.running : ℕ)
    dsimp only at hsame ⊢
    rw [hsame, hread]
    exact says_iff (readSlot flash.running) (readSlot_decimal _ _)
  · dsimp only
    rw [getNextImage_of_lookup hnext]
    exact says_iff _ (readNextImage_name _)

end Load

end Flash

/-! ## Restarts -/

/-- The same slots, with the descriptors of those that hold an image. -/
structure SavedFlash.SameImages (a b : SavedFlash) : Prop where
  running : a.running = b.running
  boot : a.boot = b.boot
  nextImage : a.nextImage = b.nextImage
  hasImage i : (a.slots i).hasImage = (b.slots i).hasImage
  native i : (a.slots i).native = (b.slots i).native
  isPartial i : (a.slots i).isPartial = (b.slots i).isPartial
  state i : (a.slots i).state = (b.slots i).state
  behavior i : (a.slots i).behavior = (b.slots i).behavior
  desc i : (b.slots i).hasImage = true → (a.slots i).desc = (b.slots i).desc

namespace Flash

variable {flash : Flash EspAppDesc}

/-- Everything but the descriptors comes back exactly when no stray line disturbs it. -/
theorem undisturbed_iff {loaded : SavedFlash} (h : loadFlash flash.save = some loaded) :
    (loaded.running = flash.running ∧ loaded.boot = flash.boot ∧
      loaded.nextImage = flash.nextImage ∧
      ∀ i, (loaded.slots i).hasImage = (flash.slots i).hasImage ∧
        (loaded.slots i).native = (flash.slots i).native ∧
        (loaded.slots i).isPartial = (flash.slots i).isPartial ∧
        (loaded.slots i).state = (flash.slots i).state.code ∧
        (loaded.slots i).behavior = (flash.slots i).behavior) ↔ flash.Undisturbed := by
  obtain ⟨loaded', hload, hslots, hrunning, hboot, hnext⟩ := flash.loadFlash_save
  obtain rfl := Option.some.inj (h.symm.trans hload)
  rw [hslots]
  constructor
  · rintro ⟨hrun, hbo, hne, hall⟩
    exact
      { running := hrunning.mp hrun
        boot := (hboot hrun).mp hbo
        nextImage := hnext.mp hne
        hasImage := fun i => (hasImage_iff i).mp (hall i).1
        native := fun i => (native_iff i).mp (hall i).2.1
        isPartial := fun i => (isPartial_iff i).mp (hall i).2.2.1
        state := fun i => (state_iff i).mp (hall i).2.2.2.1
        behavior := fun i => (behavior_iff i).mp (hall i).2.2.2.2 }
  · intro hun
    have hrun := hrunning.mpr hun.running
    exact ⟨hrun, (hboot hrun).mpr hun.boot, hnext.mpr hun.nextImage, fun i =>
      ⟨(hasImage_iff i).mpr (hun.hasImage i),
        (native_iff i).mpr (hun.native i),
        (isPartial_iff i).mpr (hun.isPartial i),
        (state_iff i).mpr (hun.state i), (behavior_iff i).mpr (hun.behavior i)⟩⟩

/-- **The file gives everything back exactly when** no stray line disturbs it and both
slots have a descriptor. -/
theorem loadFlash_save_iff : loadFlash flash.save = some flash.saved ↔
    flash.Undisturbed ∧ ∀ i, flash.KeepsDesc i ∧ (flash.slots i).desc.Valid := by
  obtain ⟨loaded, hload, hslots, -⟩ := flash.loadFlash_save
  have hiff := undisturbed_iff hload
  have hdesc (i : Fin 2) : (loaded.slots i).desc = (flash.slots i).desc ↔
      flash.KeepsDesc i ∧ (flash.slots i).desc.Valid := by
    rw [hslots]
    constructor
    · intro hsame
      have hvalid : (flash.slots i).desc.Valid := hsame ▸ valid_loadSlot _ i
      exact ⟨(desc_iff i hvalid).mp hsame, hvalid⟩
    · exact fun h => (desc_iff i h.2).mpr h.1
  rw [← hiff, hload, Option.some_inj]
  constructor
  · rintro rfl
    exact ⟨⟨rfl, rfl, rfl, fun i => ⟨rfl, rfl, rfl, rfl, rfl⟩⟩, fun i => (hdesc i).mp rfl⟩
  · rintro ⟨⟨hrunning, hboot, hnext, hall⟩, hkeeps⟩
    refine SavedFlash.ext hrunning hboot hnext (funext fun i => ?_)
    obtain ⟨hhas, hnative, hpartial, hstate, hbehavior⟩ := hall i
    exact SavedSlot.ext hhas hnative hpartial hstate hbehavior ((hdesc i).mpr (hkeeps i))

/-- A slot with an image has a descriptor. -/
def Described (flash : Flash EspAppDesc) : Prop :=
  ∀ i, (flash.slots i).hasImage = true → (flash.slots i).desc.Valid

/-- The same of the images alone. -/
theorem sameImages_iff (hdescribed : flash.Described) :
    (∃ loaded, loadFlash flash.save = some loaded ∧ loaded.SameImages flash.saved) ↔
      flash.Undisturbed ∧ ∀ i, (flash.slots i).hasImage = true → flash.KeepsDesc i := by
  constructor
  · rintro ⟨loaded, hload, hsame⟩
    have hundisturbed := (undisturbed_iff hload).mp ⟨hsame.running, hsame.boot, hsame.nextImage,
      fun i => ⟨hsame.hasImage i, hsame.native i, hsame.isPartial i, hsame.state i,
        hsame.behavior i⟩⟩
    obtain ⟨loaded', hload', hslots, -⟩ := flash.loadFlash_save
    obtain rfl := Option.some.inj (hload.symm.trans hload')
    refine ⟨hundisturbed, fun i himage => (desc_iff i (hdescribed i himage)).mp ?_⟩
    rw [← hslots]
    exact hsame.desc i himage
  · rintro ⟨hundisturbed, hkeeps⟩
    obtain ⟨loaded, hload, hslots, -⟩ := flash.loadFlash_save
    obtain ⟨hrunning, hboot, hnext, hall⟩ := (undisturbed_iff hload).mpr hundisturbed
    refine ⟨loaded, hload, ⟨hrunning, hboot, hnext, fun i => (hall i).1, fun i => (hall i).2.1,
      fun i => (hall i).2.2.1, fun i => (hall i).2.2.2.1, fun i => (hall i).2.2.2.2,
      fun i himage => ?_⟩⟩
    rw [hslots]
    exact (desc_iff i (hdescribed i himage)).mpr (hkeeps i himage)

/-! ### The states of a flash -/

/-- The states the calls lead to, with restarts between them.  What is uploaded is any
image that has a descriptor. -/
inductive Kept : Flash EspAppDesc → Prop
  | format (version : Bytes) : Kept (.format (.makeDesc version (ascii "omega_stick")))
  | call {flash : Flash EspAppDesc} (op : FlashOp EspAppDesc) : Kept flash →
      (∀ desc ∈ op.desc?, ∃ image, EspAppDesc.parseImage image = some desc) →
      Kept (op.apply flash)
  | restart {flash flash' : Flash EspAppDesc} (version : Bytes) : Kept flash →
      loadFlash flash.save = some flash'.saved → Kept (flash'.refreshNative version)

theorem Described.setSlot (h : flash.Described) {j : Fin 2} {slot : Slot EspAppDesc}
    (hslot : slot.hasImage = true → slot.desc.Valid) : (flash.setSlot j slot).Described := by
  intro i himage
  by_cases hi : i = j
  · subst hi
    rw [setSlot_slots_self] at himage ⊢
    exact hslot himage
  · rw [setSlot_slots_of_ne _ _ hi] at himage ⊢
    exact h i himage

theorem Described.bootloader (h : flash.Described) : flash.bootloader.2.Described := by
  intro i himage
  have hslot : (flash.bootloader.2.slots i).hasImage = (flash.slots i).hasImage ∧
      (flash.bootloader.2.slots i).desc = (flash.slots i).desc := by
    rw [bootloader_slots]
    unfold Slot.startPending Slot.abortPending
    split_ifs <;> exact ⟨rfl, rfl⟩
  rw [hslot.1] at himage
  rw [hslot.2]
  exact h i himage

theorem Described.apply (h : flash.Described) {op : FlashOp EspAppDesc}
    (hop : ∀ desc ∈ op.desc?, ∃ image, EspAppDesc.parseImage image = some desc) :
    (op.apply flash).Described := by
  cases op with
  | boot => exact h.bootloader
  | setBoot i =>
      rw [FlashOp.apply]
      rcases flash.setBoot_cases i with ⟨-, -, hrefused⟩ | ⟨-, hset⟩
      · rw [hrefused]
        exact h
      · rw [hset]
        exact h.setSlot (h i)
  | markValid => exact h.setSlot (h flash.running)
  | markInvalidAndRollback =>
      rw [FlashOp.apply]
      rcases flash.markInvalidAndRollback_cases with hrefused | ⟨-, -, hback⟩
      · rw [hrefused]
        exact h
      · rw [hback]
        exact h.setSlot (h flash.running)
  | setNextImage behavior => exact h
  | beginUpload => exact h.setSlot fun hvalid => Bool.noConfusion hvalid
  | uploadDescriptor desc =>
      obtain ⟨image, himage⟩ := hop desc rfl
      exact h.setSlot fun _ => EspAppDesc.valid_of_parseImage himage
  | commitImage desc =>
      obtain ⟨image, himage⟩ := hop desc rfl
      exact h.setSlot fun _ => EspAppDesc.valid_of_parseImage himage

theorem Kept.described (h : Kept flash) : flash.Described := by
  induction h with
  | format version =>
      intro i himage
      by_cases hi : i = 0
      · subst hi
        exact EspAppDesc.valid_makeDesc ..
      · have hempty : (Flash.format (EspAppDesc.makeDesc version (ascii "omega_stick"))).slots i =
            .empty := if_neg hi
        rw [hempty] at himage
        cases himage
  | call op _ hop ih => exact ih.apply hop
  | @restart flash flash' version _ hload _ =>
      intro i himage
      rw [refreshNative] at himage ⊢
      dsimp only at himage ⊢
      rw [Slot.refreshNative] at himage ⊢
      split_ifs at himage ⊢
      · exact EspAppDesc.valid_makeDesc ..
      · -- what was loaded is a descriptor
        obtain ⟨loaded, hload', hslots, -⟩ := flash.loadFlash_save
        obtain rfl := Option.some.inj (hload'.symm.trans hload)
        have hslot := congrFun hslots i
        change (flash'.slots i).saved.desc.Valid
        have hsaved : (flash'.slots i).saved = loadSlot (assignments flash.save) i := hslot
        rw [hsaved]
        exact valid_loadSlot _ i

/-- **A restart gives the slots back exactly when** no line that a text of a descriptor
leaves behind its first newline tells something else of a key written before it.  Of a
slot without an image only an all-zero descriptor does not come back. -/
theorem restart_restores_iff (h : Kept flash) :
    (loadFlash flash.save = some flash.saved ↔
      flash.Undisturbed ∧ ∀ i, flash.KeepsDesc i ∧ (flash.slots i).desc.Valid) ∧
    ((∃ loaded, loadFlash flash.save = some loaded ∧ loaded.SameImages flash.saved) ↔
      flash.Undisturbed ∧ ∀ i, (flash.slots i).hasImage = true → flash.KeepsDesc i) :=
  ⟨loadFlash_save_iff, sameImages_iff h.described⟩

/-- Texts without a newline leave nothing behind. -/
theorem undisturbed_of_newline_notMem
    (h : ∀ i, ∀ f ∈ CharField.written, 10 ∉ (flash.slots i).desc.text f) :
    flash.Undisturbed ∧ ∀ i, flash.KeepsDesc i := by
  have hslot (i : Fin 2) : (flash.slots i).straysOf CharField.written = [] :=
    List.flatMap_eq_nil_iff.mpr fun f hf => strays_eq_nil (h i f hf)
  have hafter (i : Fin 2) : flash.straysAfter i = [] := by
    rw [straysAfter, hslot, ite_self]
  have hnone {α : Type} (i : Fin 2) (key : Bytes) (read : Bytes → α) (own : α) :
      Says (flash.straysFrom i) key read own := by
    rw [straysFrom, hslot, hafter]
    exact nofun
  refine ⟨⟨hnone _ _ _ _, hnone _ _ _ _, hnone _ _ _ _, fun i => hnone _ _ _ _,
    fun i => hnone _ _ _ _, fun i => hnone _ _ _ _, fun i => hnone _ _ _ _,
    fun i => hnone _ _ _ _⟩, fun i => ?_⟩
  rw [KeepsDesc, hafter]
  exact nofun

/-! ### An upload that was confirmed -/

/-- An image with the given version. -/
def imageOf (version : Bytes) : Bytes :=
  0xE9 :: (List.replicate 31 0 ++ (EspAppDesc.makeDesc version (ascii "omega_stick")).bytes)

/-- It was uploaded to a new board, booted and confirmed. -/
def uploaded (version : Bytes) : Flash EspAppDesc :=
  let desc := EspAppDesc.makeDesc version (ascii "omega_stick")
  let fresh : Flash EspAppDesc := .format (.makeDesc (ascii "0.1.0") (ascii "omega_stick"))
  ((fresh.beginUpload.uploadDescriptor desc).commitImage desc).bootloader.2.markValid

theorem kept_uploaded {version : Bytes}
    (h : EspAppDesc.parseImage (imageOf version) =
      some (.makeDesc version (ascii "omega_stick"))) : Kept (uploaded version) := by
  have hdesc : ∀ desc ∈ some (EspAppDesc.makeDesc version (ascii "omega_stick")),
      ∃ image, EspAppDesc.parseImage image = some desc := fun _ hd => ⟨_, h.trans hd⟩
  exact .call .markValid (.call .boot (.call (.commitImage _) (.call (.uploadDescriptor _)
    (.call .beginUpload (.format _) nofun) hdesc) hdesc) nofun) nofun

theorem restart_restores_iff_plain :
    ∃ loaded, loadFlash (uploaded (ascii "0.2.0")).save = some loaded ∧
      loaded.SameImages (uploaded (ascii "0.2.0")).saved := by
  have hkept : Kept (uploaded (ascii "0.2.0")) := kept_uploaded (by decide +kernel)
  have hplain : (uploaded (ascii "0.2.0")).Undisturbed ∧
      ∀ i, (uploaded (ascii "0.2.0")).KeepsDesc i :=
    undisturbed_of_newline_notMem (by decide +kernel)
  exact (restart_restores_iff hkept).2.mpr ⟨hplain.1, fun i _ => hplain.2 i⟩

/-- The running image's version says that its slot is empty. -/
theorem not_restored_emptiesSlot :
    Kept (uploaded (ascii "1\nslot1.has=0")) ∧
      loadFlash (uploaded (ascii "1\nslot1.has=0")).save ≠
        some (uploaded (ascii "1\nslot1.has=0")).saved ∧
      ¬ ∃ loaded, loadFlash (uploaded (ascii "1\nslot1.has=0")).save = some loaded ∧
        loaded.SameImages (uploaded (ascii "1\nslot1.has=0")).saved := by
  have hloaded : (loadFlash (uploaded (ascii "1\nslot1.has=0")).save).map
      (fun loaded => (loaded.slots 1).hasImage) = some false := by decide +kernel
  have hsaved : ((uploaded (ascii "1\nslot1.has=0")).saved.slots 1).hasImage = true := by
    decide +kernel
  refine ⟨kept_uploaded (by decide +kernel), fun heq => ?_, ?_⟩
  · rw [heq, Option.map_some, hsaved] at hloaded
    cases hloaded
  · rintro ⟨loaded, hload, hsame⟩
    rw [hload, Option.map_some, hsame.hasImage 1, hsaved] at hloaded
    cases hloaded

end Flash

end OmegaStick
