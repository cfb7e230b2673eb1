import Mathlib.Data.List.Basic

/-!
# Scanners of a byte stream

A scanner looks at what is left of a stream and either waits for more, skips
one element, or takes a record of some length.  It is lawful when a look that
does not wait is not changed by what comes later.  For a lawful scanner the
cuts of a stream do not matter, and nothing of the stream is lost.
-/

/-- What a scanner makes of the elements in front of it. -/
inductive Look (β : Type*) where
  | wait
  | skip
  | take (length : ℕ) (record : β)
  deriving DecidableEq, Repr

/-- The records taken, the elements skipped, and what is left to be looked at. -/
structure Scanned (α β : Type*) where
  records : List β
  skipped : List α
  rest : List α
  deriving DecidableEq, Repr

/-- A scanner that keeps to what it has decided. -/
structure Scanner (α β : Type*) where
  look : List α → Look β
  look_nil : look [] = .wait
  take_length : ∀ {xs n record}, look xs = .take n record → 0 < n ∧ n ≤ xs.length
  skip_append : ∀ {xs} (ys : List α), look xs = .skip → look (xs ++ ys) = .skip
  take_append : ∀ {xs n record} (ys : List α), look xs = .take n record →
    look (xs ++ ys) = .take n record

namespace Scanner

variable {α β : Type*} (S : Scanner α β)

/-- The scan, bounded by a number of looks. -/
def scanFor : ℕ → List α → Scanned α β
  | 0, xs => ⟨[], [], xs⟩
  | fuel + 1, xs =>
      match S.look xs with
      | .wait => ⟨[], [], xs⟩
      | .skip =>
          let rest := scanFor fuel xs.tail
          { rest with skipped := xs.take 1 ++ rest.skipped }
      | .take n record =>
          let rest := scanFor fuel (xs.drop n)
          { rest with records := record :: rest.records }

/-- The scan of a stream: every look but the last moves on. -/
def scan (xs : List α) : Scanned α β := S.scanFor xs.length xs

variable {S}

theorem ne_nil_of_skip {xs : List α} (h : S.look xs = .skip) : xs ≠ [] := by
  rintro rfl
  rw [S.look_nil] at h
  exact nomatch h

/-- Any bound that covers the stream gives the same scan. -/
theorem scanFor_fuel {n m : ℕ} :
    ∀ {xs : List α}, xs.length ≤ n → xs.length ≤ m → S.scanFor n xs = S.scanFor m xs := by
  induction n generalizing m with
  | zero =>
      intro xs hn hm
      obtain rfl := List.length_eq_zero_iff.mp (Nat.le_zero.mp hn)
      cases m <;> simp [scanFor, S.look_nil]
  | succ n ih =>
      intro xs hn hm
      cases m with
      | zero =>
          obtain rfl := List.length_eq_zero_iff.mp (Nat.le_zero.mp hm)
          simp [scanFor, S.look_nil]
      | succ m =>
          rw [scanFor, scanFor]
          cases hlook : S.look xs with
          | wait => rfl
          | skip =>
              dsimp only
              rw [ih (m := m)]
              · rw [List.length_tail]
                omega
              · rw [List.length_tail]
                omega
          | take length record =>
              have hpos := (S.take_length hlook).1
              dsimp only
              rw [ih (m := m)]
              · rw [List.length_drop]
                omega
              · rw [List.length_drop]
                omega

theorem scan_of_wait {xs : List α} (h : S.look xs = .wait) : S.scan xs = ⟨[], [], xs⟩ := by
  unfold scan
  cases xs with
  | nil => rfl
  | cons x xs => rw [List.length_cons, scanFor, h]

theorem scan_of_skip {x : α} {xs : List α} (h : S.look (x :: xs) = .skip) :
    S.scan (x :: xs) = { S.scan xs with skipped := x :: (S.scan xs).skipped } := by
  unfold scan
  rw [List.length_cons, scanFor, h]
  rfl

theorem scan_of_take {xs : List α} {n : ℕ} {record : β} (h : S.look xs = .take n record) :
    S.scan xs =
      { S.scan (xs.drop n) with records := record :: (S.scan (xs.drop n)).records } := by
  obtain ⟨hpos, hle⟩ := S.take_length h
  cases xs with
  | nil => simp only [List.length_nil] at hle; omega
  | cons x xs =>
      have hfuel : S.scanFor xs.length ((x :: xs).drop n) = S.scan ((x :: xs).drop n) := by
        refine scanFor_fuel ?_ (Nat.le_refl _)
        rw [List.length_drop, List.length_cons]
        omega
      rw [← hfuel]
      conv_lhs => unfold scan
      rw [List.length_cons, scanFor, h]

/-- Induction along a scan: the stream it stops at, and the two ways it moves on. -/
theorem scan_induction {motive : List α → Prop}
    (hwait : ∀ xs, S.look xs = .wait → motive xs)
    (hskip : ∀ x xs, S.look (x :: xs) = .skip → motive xs → motive (x :: xs))
    (htake : ∀ xs n record, S.look xs = .take n record → motive (xs.drop n) → motive xs)
    (xs : List α) : motive xs := by
  induction h : xs.length using Nat.strongRecOn generalizing xs with
  | _ length ih =>
      cases hlook : S.look xs with
      | wait => exact hwait xs hlook
      | skip =>
          cases xs with
          | nil => exact absurd rfl (ne_nil_of_skip hlook)
          | cons x xs =>
              refine hskip x xs hlook (ih xs.length ?_ xs rfl)
              rw [← h, List.length_cons]
              exact Nat.lt_succ_self _
      | take n record =>
          obtain ⟨hpos, hle⟩ := S.take_length hlook
          refine htake xs n record hlook (ih _ ?_ (xs.drop n) rfl)
          rw [List.length_drop]
          omega

/-- A scan walks through a run every position of which is skipped. -/
theorem scan_append_of_skips {xs : List α} (ys : List α)
    (h : ∀ zs, zs <:+ xs → zs ≠ [] → S.look (zs ++ ys) = .skip) :
    S.scan (xs ++ ys) = { S.scan ys with skipped := xs ++ (S.scan ys).skipped } := by
  induction xs with
  | nil => rfl
  | cons x xs ih =>
      have hskip := h (x :: xs) (List.suffix_refl _) (by simp)
      rw [List.cons_append] at hskip ⊢
      rw [scan_of_skip hskip, ih fun zs hzs => h zs (hzs.trans (List.suffix_cons x xs))]
      rfl

/-- A stream no position of which holds a record gives none. -/
theorem records_eq_nil {xs : List α}
    (h : ∀ zs, zs <:+ xs → ∀ n record, S.look zs ≠ .take n record) :
    (S.scan xs).records = [] := by
  induction xs using S.scan_induction with
  | hwait xs hwait => rw [scan_of_wait hwait]
  | hskip x xs hskip ih =>
      rw [scan_of_skip hskip]
      exact ih fun zs hzs => h zs (hzs.trans (List.suffix_cons x xs))
  | htake xs n record htake ih => exact absurd htake (h xs (List.suffix_refl xs) n record)

/-! ## Cuts -/

/-- The scan of a stream goes on where the scan of its beginning stopped. -/
theorem scan_append (xs ys : List α) :
    S.scan (xs ++ ys) =
      { records := (S.scan xs).records ++ (S.scan ((S.scan xs).rest ++ ys)).records
        skipped := (S.scan xs).skipped ++ (S.scan ((S.scan xs).rest ++ ys)).skipped
        rest := (S.scan ((S.scan xs).rest ++ ys)).rest } := by
  induction xs using S.scan_induction with
  | hwait xs h => simp [scan_of_wait h]
  | hskip x xs h ih =>
      have hmore := S.skip_append ys h
      rw [List.cons_append] at hmore ⊢
      rw [scan_of_skip h, scan_of_skip hmore, ih]
      rfl
  | htake xs n record h ih =>
      have hmore := S.take_append ys h
      rw [scan_of_take h, scan_of_take hmore,
        List.drop_append_of_le_length (S.take_length h).2, ih]
      rfl

/-- A scan leaves what it waits on. -/
theorem look_rest (xs : List α) : S.look (S.scan xs).rest = .wait := by
  induction xs using S.scan_induction with
  | hwait xs h => rw [scan_of_wait h]; exact h
  | hskip x xs h ih => rw [scan_of_skip h]; exact ih
  | htake xs n record h ih => rw [scan_of_take h]; exact ih

/-! ## Nothing is lost -/

/-- A piece of a scanned stream: an element skipped, or a record with the
elements it was read from. -/
inductive Piece (α β : Type*) where
  | skipped (x : α)
  | record (raw : List α) (record : β)

namespace Piece

def raw : Piece α β → List α
  | .skipped x => [x]
  | .record raw _ => raw

def skipped? : Piece α β → Option α
  | .skipped x => some x
  | .record _ _ => none

def record? : Piece α β → Option β
  | .skipped _ => none
  | .record _ taken => some taken

end Piece

/-- Every element of a stream is skipped, part of a record taken, or left over,
once and in order. -/
theorem scan_pieces (xs : List α) :
    ∃ pieces : List (Piece α β),
      pieces.flatMap Piece.raw ++ (S.scan xs).rest = xs ∧
        pieces.filterMap Piece.record? = (S.scan xs).records ∧
        pieces.filterMap Piece.skipped? = (S.scan xs).skipped ∧
        ∀ raw record, .record raw record ∈ pieces →
          ∃ ys, S.look (raw ++ ys) = .take raw.length record := by
  induction xs using S.scan_induction with
  | hwait xs h => exact ⟨[], by simp [scan_of_wait h]⟩
  | hskip x xs h ih =>
      obtain ⟨pieces, hraw, hrecords, hskipped, hlooked⟩ := ih
      refine ⟨.skipped x :: pieces, ?_, ?_, ?_, ?_⟩
      · rw [scan_of_skip h]
        simpa [Piece.raw] using hraw
      · rw [scan_of_skip h]
        simpa [List.filterMap_cons, Piece.record?] using hrecords
      · rw [scan_of_skip h]
        simpa [List.filterMap_cons, Piece.skipped?] using hskipped
      · simpa using hlooked
  | htake xs n record h ih =>
      obtain ⟨pieces, hraw, hrecords, hskipped, hlooked⟩ := ih
      refine ⟨.record (xs.take n) record :: pieces, ?_, ?_, ?_, ?_⟩
      · rw [scan_of_take h]
        simp only [List.flatMap_cons, Piece.raw, List.append_assoc]
        rw [hraw, List.take_append_drop]
      · rw [scan_of_take h]
        simpa [List.filterMap_cons, Piece.record?] using hrecords
      · rw [scan_of_take h]
        simpa [List.filterMap_cons, Piece.skipped?] using hskipped
      · intro raw taken hmem
        rcases List.mem_cons.mp hmem with heq | hmem
        · obtain ⟨rfl, rfl⟩ := Piece.record.inj heq
          refine ⟨xs.drop n, ?_⟩
          rw [List.take_append_drop, List.length_take_of_le (S.take_length h).2]
          exact h
        · exact hlooked raw taken hmem

end Scanner
