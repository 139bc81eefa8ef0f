-- SUMMARY: The parts of the C# runtime the scripts call: exceptions, list access, remainders, and parsing of numbers.
import Mathlib.Algebra.Order.Floor.Ring
import SmoothMotion.Lib.Decimal
import SmoothMotion.Lib.Vector3

open Decimal

namespace CSharp

inductive Exn where
  | nullReference
  | argumentOutOfRange
  | divideByZero
  | format
  | overflow
  | fileNotFound
deriving DecidableEq, Repr

/-- A missing reference, an index out of range or a division by zero: exceptions
    that no input should bring about. -/
def Exn.isFault : Exn → Bool
  | .nullReference | .argumentOutOfRange | .divideByZero => true
  | .format | .overflow | .fileNotFound => false

/-- What a number in the input can bring about is no fault. -/
theorem isFault_of_input {e : Exn} (h : e = .format ∨ e = .overflow) : e.isFault = false := by
  rcases h with rfl | rfl
  · rfl
  · rfl

/-- `File.ReadAllText`, on the content of the file if there is one. -/
def readAllText : Option Text → Except Exn Text
  | none => .error .fileNotFound
  | some content => .ok content

/-! ## Values and lists -/

/-- A use of a reference. -/
def deref {α : Type} : Option α → Except Exn α
  | none => .error .nullReference
  | some a => .ok a

theorem deref_error {α : Type} {r : Option α} {e : Exn} (h : deref r = .error e) :
    e = .nullReference := by
  cases r with
  | none =>
    cases h
    rfl
  | some a => cases h

/-- `xs[i]`. -/
def index {α : Type} (xs : List α) (i : Int) : Except Exn α :=
  if i < 0 then .error .argumentOutOfRange
  else match xs[i.toNat]? with
    | none => .error .argumentOutOfRange
    | some a => .ok a

theorem index_ok_iff {α : Type} {xs : List α} {i : Nat} {a : α} :
    index xs i = .ok a ↔ xs[i]? = some a := by
  have hpos : ¬ (i : Int) < 0 := by omega
  cases h : xs[i]? <;> simp [index, hpos, h]

theorem index_ofNat {α : Type} {xs : List α} {i : Nat} {a : α} (h : xs[i]? = some a) :
    index xs i = .ok a :=
  index_ok_iff.mpr h

theorem index_nonneg {α : Type} {xs : List α} {i : Int} {a : α} (h : index xs i = .ok a) :
    0 ≤ i ∧ xs ≠ [] := by
  unfold index at h
  split at h
  · cases h
  · next hi =>
    refine ⟨not_lt.mp hi, fun hempty => ?_⟩
    rw [hempty] at h
    cases h

theorem index_error {α : Type} {xs : List α} {i : Int} {e : Exn} (h : index xs i = .error e) :
    e = .argumentOutOfRange := by
  unfold index at h
  split at h
  · cases h
    rfl
  · split at h
    · cases h
      rfl
    · cases h

/-- `m / n` on integers. -/
def intDiv (m n : Int) : Except Exn Int :=
  if n = 0 then .error .divideByZero else .ok (m.tdiv n)

/-- `m % n` on integers. -/
def intRem (m n : Int) : Except Exn Int :=
  if n = 0 then .error .divideByZero else .ok (m.tmod n)

theorem intRem_error {m n : Int} {e : Exn} (h : intRem m n = .error e) : e = .divideByZero := by
  unfold intRem at h
  split at h
  · cases h
    rfl
  · cases h

theorem intRem_natCast {m n : Nat} (h : 0 < n) : intRem m n = .ok (m % n : Nat) := by
  have hn : (n : Int) ≠ 0 := by omega
  unfold intRem
  rw [if_neg hn]
  rfl

theorem intRem_of_lt {m n : Nat} (h : m < n) : intRem m n = .ok m := by
  rw [intRem_natCast (by omega), Nat.mod_eq_of_lt h]

/-! ## Remainders of numbers -/

variable {K : Type} [Scalar K]

/-- Rounding towards zero. -/
def truncate (x : K) : Int := if 0 ≤ x then ⌊x⌋ else ⌈x⌉

/-- `x % y` on numbers: the remainder has the sign of `x`. -/
def fmod (x y : K) : K := x - y * truncate (x / y)

section Fmod

variable {x y : K}

theorem fmod_of_nonneg (hx : 0 ≤ x) (hy : 0 < y) : fmod x y = x - ⌊x / y⌋ * y := by
  unfold fmod truncate
  rw [if_pos (div_nonneg hx hy.le), mul_comm]

theorem fmod_nonneg (hx : 0 ≤ x) (hy : 0 < y) : 0 ≤ fmod x y := by
  rw [fmod_of_nonneg hx hy]
  exact Int.sub_floor_div_mul_nonneg x hy

theorem fmod_lt (hx : 0 ≤ x) (hy : 0 < y) : fmod x y < y := by
  rw [fmod_of_nonneg hx hy]
  exact Int.sub_floor_div_mul_lt x hy

/-- On a cycle of `n` the remainder is the place on the cycle. -/
theorem floor_fmod_natCast {n : Nat} (hx : 0 ≤ x) (hn : 0 < n) : ⌊fmod x n⌋ = ⌊x⌋ % n := by
  have hmul : (⌊x / (n : K)⌋ : K) * n = ((⌊x / (n : K)⌋ * n : Int) : K) := by push_cast; rfl
  rw [fmod_of_nonneg hx (Nat.cast_pos.mpr hn), hmul, Int.floor_sub_intCast, Int.floor_div_natCast,
    Int.emod_def, mul_comm]

theorem fract_fmod_natCast {n : Nat} (hx : 0 ≤ x) (hn : 0 < n) :
    Int.fract (fmod x n) = Int.fract x := by
  have hmul : (⌊x / (n : K)⌋ : K) * n = ((⌊x / (n : K)⌋ * n : Int) : K) := by push_cast; rfl
  rw [fmod_of_nonneg hx (Nat.cast_pos.mpr hn), hmul, Int.fract_sub_intCast]

theorem fmod_one (hx : 0 ≤ x) : fmod x 1 = Int.fract x := by
  rw [fmod_of_nonneg hx one_pos, div_one, mul_one, Int.self_sub_floor]

theorem fmod_of_neg (hx : x < 0) (hy : 0 < y) : fmod x y = x - ⌈x / y⌉ * y := by
  unfold fmod truncate
  rw [if_neg (not_le.mpr (div_neg_of_neg_of_pos hx hy)), mul_comm]

theorem ceil_of_fract_eq_zero (h : Int.fract x = 0) : ⌈x⌉ = ⌊x⌋ := by
  have hwhole := Int.self_sub_fract x
  rw [h, sub_zero] at hwhole
  rw [hwhole, Int.ceil_intCast, Int.floor_intCast]

theorem ceil_of_fract_ne_zero (h : Int.fract x ≠ 0) : ⌈x⌉ = ⌊x⌋ + 1 := by
  have hceil := Int.ceil_eq_add_one_sub_fract h
  rw [add_sub_right_comm, Int.self_sub_fract] at hceil
  exact_mod_cast hceil

/-- A multiple of `y` leaves nothing. -/
theorem fmod_intCast_mul (m : Int) (hy : 0 < y) : fmod (m * y) y = 0 := by
  have htruncate : truncate (m : K) = m := by
    unfold truncate
    split
    · exact Int.floor_intCast m
    · exact Int.ceil_intCast m
  unfold fmod
  rw [mul_div_cancel_right₀ _ hy.ne', htruncate, mul_comm, sub_self]

/-- Below zero the remainder is below zero too, but for the multiples of `y`. -/
theorem fmod_nonneg_iff (hy : 0 < y) : 0 ≤ fmod x y ↔ 0 ≤ x ∨ ∃ m : Int, x = m * y := by
  constructor
  · intro h
    by_cases hx : 0 ≤ x
    · exact .inl hx
    · have hle : x ≤ ⌈x / y⌉ * y := (div_le_iff₀ hy).mp (Int.le_ceil _)
      rw [fmod_of_neg (not_le.mp hx) hy] at h
      exact .inr ⟨⌈x / y⌉, hle.antisymm (sub_nonneg.mp h)⟩
  · rintro (hx | ⟨m, rfl⟩)
    · exact fmod_nonneg hx hy
    · exact (fmod_intCast_mul m hy).ge

end Fmod

/-! ## Parsing -/

/-- The white space `Parse` allows around a number. -/
def isWhite (c : Char) : Bool := c ∈ ['\t', '\n', '\x0b', '\x0c', '\r', ' ']

def trim (text : Text) : Text := ((text.dropWhile isWhite).reverse.dropWhile isWhite).reverse

/-- `Int32.Parse`. -/
def int32Parse (text : Text) : Except Exn Int :=
  match intNumeral (trim text) with
  | none => .error .format
  | some n =>
    if n < Int32.minValue.toInt ∨ Int32.maxValue.toInt < n then .error .overflow else .ok n

/-- `double.Parse` of a finite number, in exact arithmetic: digits may be
    grouped by commas. -/
def doubleParse (K : Type) [Scalar K] (text : Text) : Except Exn K :=
  match Scanner.whole (scanDecimal true) (trim text) with
  | none => .error .format
  | some q => .ok (q : K)

private theorem trim_of_no_white {text : Text} (h : ∀ c ∈ text, isWhite c = false) :
    trim text = text := by
  have hdrop : ∀ cs : Text, (∀ c ∈ cs, isWhite c = false) → cs.dropWhile isWhite = cs := by
    intro cs hcs
    cases cs with
    | nil => rfl
    | cons c cs => simp [hcs c (by simp)]
  unfold trim
  rw [hdrop text h, hdrop text.reverse (by simpa using h), List.reverse_reverse]

private theorem isWhite_of_numeralChar {c : Char} (h : numeralChar false c = true) :
    isWhite c = false := by
  by_contra hwhite
  simp only [isWhite, List.mem_cons, List.not_mem_nil, or_false, decide_eq_true_eq,
    Bool.not_eq_false] at hwhite
  rcases hwhite with rfl | rfl | rfl | rfl | rfl | rfl <;> exact absurd h (by decide)

theorem trim_numeral {text : Text} {q : ℚ} (h : numeral text = some q) : trim text = text :=
  trim_of_no_white fun c hc => isWhite_of_numeralChar (scanDecimal_local.numeralChar h c hc)

/-- A plain decimal numeral parses to its value. -/
theorem doubleParse_numeral {text : Text} {q : ℚ} (h : numeral text = some q) :
    doubleParse K text = .ok (q : K) := by
  have hchars := scanDecimal_local.numeralChar h
  have hcomma : ',' ∉ text := fun hmem => absurd (hchars ',' hmem) (by decide)
  have htrim : trim text = text := trim_numeral h
  have hwhole : Scanner.whole (scanDecimal true) text = some q := by
    rw [Scanner.whole_eq_some_iff, scanDecimal_of_no_comma hcomma]
    exact Scanner.whole_eq_some_iff.mp h
  simp [doubleParse, htrim, hwhole]

/-- An integer that is a plain decimal numeral has one value. -/
theorem int32Parse_numeral {text : Text} {k : Int} {q : ℚ} (hint : int32Parse text = .ok k)
    (hnumeral : numeral text = some q) : q = k := by
  unfold int32Parse at hint
  rw [trim_numeral hnumeral] at hint
  cases hk : intNumeral text with
  | none =>
    rw [hk] at hint
    cases hint
  | some n =>
    rw [hk] at hint
    simp only at hint
    split at hint
    · cases hint
    · cases hint
      have hsame := (numeral_of_intNumeral hk).symm.trans hnumeral
      exact (Option.some.inj hsame).symm

/-- A printed `int` parses to itself. -/
theorem int32Parse_showInt {n : Int} (hmin : Int32.minValue.toInt ≤ n)
    (hmax : n ≤ Int32.maxValue.toInt) : int32Parse (showInt n) = .ok n := by
  have hlocal : Scanner.Local false scanInt := scanInt_local
  have hchars := hlocal.numeralChar (intNumeral_showInt n)
  have htrim : trim (showInt n) = showInt n :=
    trim_of_no_white fun c hc => isWhite_of_numeralChar (hchars c hc)
  simp only [int32Parse, htrim, intNumeral_showInt]
  rw [if_neg (by omega)]

end CSharp
