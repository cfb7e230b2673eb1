import Mathlib.Data.BitVec

/-!
# Bit fields

Some neighbouring bits of a word, read and replaced with masks and shifts.  Replacing a
field changes its own bits and no others, so fields that do not overlap keep their values.
-/

/-- A field of `w`-bit words: where it starts, and its bits as they stand at the word's end. -/
structure BitField (w : ℕ) where
  shift : ℕ
  ones : BitVec w
  inside : (ones <<< shift) >>> shift = ones

namespace BitField

variable {w : ℕ}

/-- The field's own bits. -/
def mask (f : BitField w) : BitVec w := f.ones <<< f.shift

/-- The word with a new value in the field. -/
def put (f : BitField w) (code word : BitVec w) : BitVec w :=
  (word &&& ~~~f.mask) ||| ((code &&& f.ones) <<< f.shift)

/-- The field's value. -/
def get (f : BitField w) (word : BitVec w) : BitVec w := (word >>> f.shift) &&& f.ones

variable (f g : BitField w) (code word : BitVec w)

/-- A field's value is in its own bits. -/
theorem get_eq : f.get word = (word &&& f.mask) >>> f.shift := by
  rw [get, mask, BitVec.ushiftRight_and_distrib, f.inside]

theorem put_and_mask : f.put code word &&& f.mask = (code &&& f.ones) <<< f.shift := by
  have hcode : (code &&& f.ones) <<< f.shift &&& f.mask = (code &&& f.ones) <<< f.shift := by
    rw [mask, ← BitVec.shiftLeft_and_distrib, BitVec.and_assoc, BitVec.and_self]
  have hword : word &&& ~~~f.mask &&& f.mask = 0#w := by
    rw [BitVec.and_assoc, BitVec.and_comm (~~~f.mask), BitVec.and_not_self]
    exact BitVec.and_zero
  rw [put, BitVec.and_or_distrib_right, hcode, hword, BitVec.zero_or]

/-- **What is put is got.** -/
theorem get_put (h : ((code &&& f.ones) <<< f.shift) >>> f.shift = code) :
    f.get (f.put code word) = code := by
  rw [get_eq, put_and_mask, h]

/-- **No other bit changes.** -/
theorem getLsbD_put {i : ℕ} (h : f.mask.getLsbD i = false) :
    (f.put code word).getLsbD i = word.getLsbD i := by
  have hcode : ((code &&& f.ones) <<< f.shift).getLsbD i = false := by
    rw [BitVec.shiftLeft_and_distrib, BitVec.getLsbD_and]
    exact (congrArg _ h).trans (Bool.and_false _)
  rw [put, BitVec.getLsbD_or, hcode, Bool.or_false, BitVec.getLsbD_and]
  by_cases hi : i < w
  · rw [BitVec.getLsbD_not, h, decide_eq_true hi, Bool.not_false, Bool.and_true, Bool.and_true]
  · rw [BitVec.getLsbD_of_ge _ _ (not_lt.mp hi), Bool.false_and]

variable {f g} in
/-- A field that does not overlap keeps its value. -/
theorem get_put_of_disjoint (h : f.mask &&& g.mask = 0#w) :
    g.get (f.put code word) = g.get word := by
  have hsame : f.put code word &&& g.mask = word &&& g.mask := by
    refine BitVec.eq_of_getLsbD_eq fun i _ => ?_
    rw [BitVec.getLsbD_and, BitVec.getLsbD_and]
    have hbit : (f.mask.getLsbD i && g.mask.getLsbD i) = false := by
      rw [← BitVec.getLsbD_and, h, BitVec.getLsbD_zero]
    cases hg : g.mask.getLsbD i with
    | false => rw [Bool.and_false, Bool.and_false]
    | true =>
        rw [hg, Bool.and_true] at hbit
        rw [f.getLsbD_put code word hbit]
  rw [get_eq, get_eq, hsame]

end BitField
