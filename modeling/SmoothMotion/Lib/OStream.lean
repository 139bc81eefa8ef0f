-- SUMMARY: Formatted output of a `double` to a `std::ostream` in the default format, and the value of the text.
import Mathlib.Data.List.DropRight
import SmoothMotion.Lib.Decimal
import SmoothMotion.Lib.Rounding

open Decimal

/-!
# Formatted output streams

A stream that nobody has configured prints a `double` like `%g`: rounded to six
significant digits, without zeros at the end of a fraction, and with an exponent
if the value is large or small. Whatever the layout, the text is a numeral, and
its value is the rounded one.
-/

namespace OStream

/-! ## The layout -/

/-- The fraction without the zeros at its end. -/
def stripZeros (fraction : Text) : Text := fraction.rdropWhile fun c => c = '0'

/-- An exponent has a sign and at least two digits. -/
def showExponent (exponent : Int) : Text :=
  'e' :: (if exponent < 0 then '-' else '+') ::
    ((if exponent.natAbs < 10 then ['0'] else []) ++ showNat exponent.natAbs)

/-- The digits of the significand, laid out for the exponent. -/
def layout (digits : Text) (exponent : Int) : Text :=
  if exponent < -4 ∨ 5 < exponent then
    digits.take 1 ++ (point (stripZeros (digits.drop 1)) ++ showExponent exponent)
  else if exponent < 0 then
    ['0'] ++ (point (stripZeros (List.replicate (-exponent - 1).toNat '0' ++ digits)) ++ [])
  else
    digits.take (exponent.toNat + 1) ++ (point (stripZeros (digits.drop (exponent.toNat + 1))) ++ [])

variable {K : Type} [Field K] [LinearOrder K] [IsStrictOrderedRing K] [FloorRing K]

/-- `stream << value`; `tieUp` is how the rounding mode settles halves. -/
def showDouble (tieUp : Int → Bool) (value : K) : Text :=
  if value = 0 then ['0']
  else
    let (significand, exponent) := Rounding.round tieUp 10 5 |value|
    (if decide (value < 0) then ['-'] else []) ++ layout (showNat significand) exponent

/-! ## The value of the text -/

/-- Zeros at the end of a fraction do not count. -/
theorem stripZeros_value (fraction : Text) :
    (digitsValue (stripZeros fraction) : ℚ) / 10 ^ (stripZeros fraction).length =
      digitsValue fraction / 10 ^ fraction.length := by
  induction fraction using List.reverseRecOn with
  | nil => rfl
  | append_singleton ds c ih =>
    unfold stripZeros at ih ⊢
    rw [List.rdropWhile_concat]
    split
    · next hzero =>
      have hc : c = '0' := by simpa using hzero
      rw [ih, hc, digitsValue_snoc, List.length_append, List.length_singleton, pow_succ]
      have hvalue : digitValue '0' = 0 := rfl
      rw [hvalue]
      push_cast
      field_simp
      simp
    · rfl

theorem isDigit_stripZeros {fraction : Text} (h : ∀ c ∈ fraction, c.isDigit = true) :
    ∀ c ∈ stripZeros fraction, c.isDigit = true :=
  fun c hc => h c ((List.rdropWhile_prefix _ _).subset hc)

/-- A significand in front of the point and behind it is one number. -/
theorem decimalValue_split (negative : Bool) (integer fraction : Text) (exponent : Int) :
    decimalValue negative integer (stripZeros fraction) exponent =
      (if negative then -1 else 1) *
        (digitsValue (integer ++ fraction) / 10 ^ fraction.length) * 10 ^ exponent := by
  unfold decimalValue
  rw [stripZeros_value, digitsValue_append]
  push_cast
  field_simp

theorem takeExponent_showExponent (exponent : Int) :
    takeExponent (showExponent exponent) = (some exponent, []) := by
  let digits := (if exponent.natAbs < 10 then ['0'] else []) ++ showNat exponent.natAbs
  have hdigits : ∀ c ∈ digits, c.isDigit = true := by
    intro c hc
    rcases List.mem_append.mp hc with hzero | hshow
    · split at hzero
      · rw [List.mem_singleton.mp hzero]
        rfl
      · cases hzero
    · exact isDigit_of_mem_showNat hshow
  have hvalue : digitsValue digits = exponent.natAbs := by
    rw [← digitsValue_showNat exponent.natAbs]
    by_cases hsmall : exponent.natAbs < 10
    · simp only [digits, if_pos hsmall, digitsValue_showNat]
      exact digitsValue_replicate_zero 1 _ |>.trans (digitsValue_showNat _)
    · simp only [digits, if_neg hsmall, List.nil_append]
  have hne : digits ≠ [] := List.append_ne_nil_of_right_ne_nil _ (showNat_ne_nil _)
  have hsign : takeSign ((if exponent < 0 then '-' else '+') :: digits) =
      (decide (exponent < 0), digits) := by
    by_cases hneg : exponent < 0 <;> simp [takeSign, hneg]
  have hscan := scanInt_digits hsign hne hdigits
  have hexponent : signed (decide (exponent < 0)) (digitsValue digits) = exponent := by
    unfold signed
    rw [hvalue]
    by_cases hneg : exponent < 0
    · simp only [hneg, decide_true, if_true]
      omega
    · simp only [hneg, decide_false, Bool.false_eq_true, if_false]
      omega
  rw [hexponent] at hscan
  exact hscan

/-- A numeral whose digits are those of `m`, with the point where `exponent`
    says. -/
theorem numeral_split (negative : Bool) {integer fraction exponentText : Text}
    {written exponent : Int} {m : Nat} (hne : integer ≠ [])
    (hdigits : ∀ c ∈ integer ++ fraction, c.isDigit = true)
    (hwritten : takeExponent exponentText = (some written, []))
    (hstop : ∀ c ∈ exponentText.head?, c.isDigit = false ∧ c ≠ '.')
    (hvalue : digitsValue (integer ++ fraction) = m)
    (hlength : (fraction.length : Int) = written - exponent + 5) :
    numeral ((if negative then ['-'] else []) ++
      (integer ++ (point (stripZeros fraction) ++ exponentText))) =
        some ((if negative then -1 else 1) * Rounding.value 10 5 (m, exponent)) := by
  have hinteger : ∀ c ∈ integer, c.isDigit = true := fun c hc => hdigits c (by simp [hc])
  have hfraction : ∀ c ∈ fraction, c.isDigit = true := fun c hc => hdigits c (by simp [hc])
  have hscale : (10 : ℚ) ^ (exponent - 5) = 10 ^ written / 10 ^ fraction.length := by
    have hexp : exponent - 5 = written - fraction.length := by omega
    rw [hexp, zpow_sub₀ (by norm_num), zpow_natCast]
  rw [numeral_parts negative hne hinteger (isDigit_stripZeros hfraction) hwritten hstop,
    decimalValue_split, hvalue]
  simp only [Rounding.value, Nat.cast_ofNat, hscale]
  congr 1
  ring

theorem numeral_layout (negative : Bool) {digits : Text} {exponent : Int} {m : Nat}
    (hdigits : ∀ c ∈ digits, c.isDigit = true) (hvalue : digitsValue digits = m)
    (hlength : digits.length = 6) :
    numeral ((if negative then ['-'] else []) ++ layout digits exponent) =
      some ((if negative then -1 else 1) * Rounding.value 10 5 (m, exponent)) := by
  have hsplit : ∀ k, digits.take k ++ digits.drop k = digits := fun k => List.take_append_drop k digits
  have htake : ∀ k, digits.take (k + 1) ≠ [] := by
    intro k hempty
    have hlen := congrArg List.length hempty
    simp [hlength] at hlen
  have hnone : takeExponent [] = (some 0, []) := rfl
  unfold layout
  by_cases hlarge : exponent < -4 ∨ 5 < exponent
  · -- one digit in front of the point, and an exponent
    rw [if_pos hlarge]
    refine numeral_split negative (htake 0) ?_ (takeExponent_showExponent exponent) ?_ ?_ ?_
    · rwa [hsplit]
    · simp [showExponent]
    · rwa [hsplit]
    · simp [hlength]
  rw [if_neg hlarge]
  by_cases hneg : exponent < 0
  · -- a fraction that begins with zeros
    rw [if_pos hneg]
    refine numeral_split negative (by simp) ?_ hnone (by simp) ?_ ?_
    · intro c hc
      rcases List.mem_append.mp hc with hzero | hc
      · rw [List.mem_singleton.mp hzero]
        rfl
      · rcases List.mem_append.mp hc with hzero | hc
        · rw [List.eq_of_mem_replicate hzero]
          rfl
        · exact hdigits c hc
    · have hzeros := digitsValue_replicate_zero ((-exponent - 1).toNat + 1) digits
      rw [← hvalue, ← hzeros]
      rfl
    · simp [hlength]
      omega
  · -- the point behind the digit for the units
    rw [if_neg hneg]
    refine numeral_split negative (htake _) ?_ hnone (by simp) ?_ ?_
    · rwa [hsplit]
    · rwa [hsplit]
    · simp [hlength]
      omega

/-- The value that is printed. -/
def rounded (tieUp : Int → Bool) (v : K) : K :=
  if v = 0 then 0
  else (if decide (v < 0) then -1 else 1) * Rounding.value 10 5 (Rounding.round tieUp 10 5 |v|)

/-- The text of a `double` is a numeral for the rounded value. -/
theorem numeral_showDouble (tieUp : Int → Bool) (v : K) :
    ∃ q, numeral (showDouble tieUp v) = some q ∧ (q : K) = rounded tieUp v := by
  unfold showDouble rounded
  split
  · exact ⟨0, by decide +kernel, by simp⟩
  · next hne =>
    obtain ⟨hlow, hhigh⟩ := Rounding.round_bounds tieUp (by norm_num : 1 < 10) 5 (abs_pos.mpr hne)
    refine ⟨_, numeral_layout _ (fun c => isDigit_of_mem_showNat) (digitsValue_showNat _)
      (length_showNat hlow hhigh), ?_⟩
    unfold Rounding.value
    push_cast
    congr 1
    split <;> simp

/-- A `double` is printed exactly if it has at most six significant digits. -/
theorem rounded_eq_iff (tieUp : Int → Bool) (v : K) :
    rounded tieUp v = v ↔ Rounding.HasDigits 10 6 v := by
  unfold rounded
  split
  · next hzero =>
    rw [hzero]
    exact iff_of_true rfl (Rounding.hasDigits_zero (by norm_num))
  · next hne =>
    rw [← Rounding.hasDigits_abs_iff,
      ← Rounding.value_round_eq_iff tieUp (by norm_num) 5 (abs_pos.mpr hne)]
    by_cases hneg : v < 0
    · rw [abs_of_neg hneg]
      simp only [hneg, decide_true, if_true, neg_one_mul]
      exact neg_eq_iff_eq_neg
    · rw [abs_of_nonneg (not_lt.mp hneg)]
      simp [hneg]

end OStream
