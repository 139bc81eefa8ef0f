-- SUMMARY: Decimal numerals as text: printing integers, and scanning integers and decimal fractions off the front of a text.
import Mathlib.Data.Nat.Digits.Lemmas
import Mathlib.Data.Rat.Cast.Defs
import Mathlib.Data.List.TakeWhile

/-!
# Decimal numerals

A scanner reads a numeral off the front of a text: it gives the value, or
nothing when the characters it took are no numeral, and the text that is left.
Scanners stop at the first character that cannot continue a numeral, so what
they read of a text followed by a delimiter is what they read of the text
alone. `Scanner.Local` states this once for all of them.
-/

namespace Decimal

abbrev Text := List Char

abbrev Scanner (α : Type) := Text → Option α × Text

/-! ## Digits -/

def digitValue (c : Char) : Nat := c.toNat - '0'.toNat

def digitsValue (ds : Text) : Nat := ds.foldl (fun n c => 10 * n + digitValue c) 0

def showNat (n : Nat) : Text :=
  if n = 0 then ['0'] else ((Nat.digits 10 n).map Nat.digitChar).reverse

def showInt (n : Int) : Text :=
  if n < 0 then '-' :: showNat n.natAbs else showNat n.natAbs

/-! ## Scanners -/

/-- An optional sign: whether it is a minus, and what follows it. -/
def takeSign : Text → Bool × Text
  | [] => (false, [])
  | c :: cs => if c = '-' then (true, cs) else if c = '+' then (false, cs) else (false, c :: cs)

def signed (negative : Bool) (n : Nat) : Int := if negative then -n else n

def scanInt : Scanner Int := fun cs =>
  let (negative, cs) := takeSign cs
  let digits := cs.takeWhile Char.isDigit
  (if digits = [] then none else some (signed negative (digitsValue digits)),
    cs.dropWhile Char.isDigit)

/-- The digits in front of the decimal point. With `group` a comma may stand
    anywhere after the first of them and is skipped. -/
def takeInteger (group : Bool) : Text → Text × Text
  | [] => ([], [])
  | c :: cs =>
    if c.isDigit then
      let inside := fun c : Char => c.isDigit || (group && c == ',')
      (((c :: cs).takeWhile inside).filter Char.isDigit, (c :: cs).dropWhile inside)
    else ([], c :: cs)

/-- The digits behind a decimal point, if there is one. -/
def takeFraction : Text → Text × Text
  | [] => ([], [])
  | c :: cs =>
    if c = '.' then (cs.takeWhile Char.isDigit, cs.dropWhile Char.isDigit) else ([], c :: cs)

/-- The exponent, `0` if there is none. An `e` without digits is no exponent,
    but the characters are taken all the same. -/
def takeExponent : Scanner Int
  | [] => (some 0, [])
  | c :: cs => if c = 'e' ∨ c = 'E' then scanInt cs else (some 0, c :: cs)

def decimalValue (negative : Bool) (integer fraction : Text) (exponent : Int) : ℚ :=
  (if negative then -1 else 1) *
    (digitsValue integer + digitsValue fraction / 10 ^ fraction.length) * 10 ^ exponent

def scanDecimal (group : Bool) : Scanner ℚ := fun cs =>
  let (negative, cs) := takeSign cs
  let (integer, cs) := takeInteger group cs
  let (fraction, cs) := takeFraction cs
  if integer = [] ∧ fraction = [] then (none, cs)
  else
    let (exponent, cs) := takeExponent cs
    (exponent.map (decimalValue negative integer fraction), cs)

/-- The value of a text that is one numeral from its first character to its
    last. -/
def Scanner.whole {α : Type} (scan : Scanner α) (text : Text) : Option α :=
  if (scan text).2 = [] then (scan text).1 else none

def intNumeral (text : Text) : Option Int := Scanner.whole scanInt text

def numeral (text : Text) : Option ℚ := Scanner.whole (scanDecimal false) text

/-- The number in `K` that a numeral denotes. -/
def numeralIn (K : Type) [Field K] (text : Text) : Option K :=
  (numeral text).map fun q : ℚ => (q : K)

/-! ## Delimiters -/

/-- The characters a numeral can contain. -/
def numeralChar (group : Bool) (c : Char) : Bool :=
  c.isDigit || c ∈ ['+', '-', '.', 'e', 'E'] || (group && c == ',')

/-- `rest` does not continue a numeral in front of it. -/
def Delimited (group : Bool) (rest : Text) : Prop :=
  ∀ c ∈ rest.head?, numeralChar group c = false

@[simp] theorem Delimited.nil (group : Bool) : Delimited group [] := by
  simp [Delimited]

@[simp] theorem Delimited.cons_iff {group : Bool} {c : Char} {rest : Text} :
    Delimited group (c :: rest) ↔ numeralChar group c = false := by
  simp [Delimited]

/-- What a scanner reads does not depend on what stands behind a delimiter. -/
def Scanner.Local {α : Type} (group : Bool) (scan : Scanner α) : Prop :=
  ∀ cs rest, Delimited group rest → scan (cs ++ rest) = ((scan cs).1, (scan cs).2 ++ rest)

private theorem takeWhile_append_stop {p : Char → Bool} {cs rest : Text}
    (h : ∀ c ∈ rest.head?, p c = false) : (cs ++ rest).takeWhile p = cs.takeWhile p := by
  induction cs with
  | nil =>
    cases rest with
    | nil => rfl
    | cons c rest => simp [h c (by simp)]
  | cons c cs ih => simp [List.takeWhile_cons, ih]

private theorem dropWhile_append_stop {p : Char → Bool} {cs rest : Text}
    (h : ∀ c ∈ rest.head?, p c = false) : (cs ++ rest).dropWhile p = cs.dropWhile p ++ rest := by
  induction cs with
  | nil =>
    cases rest with
    | nil => rfl
    | cons c rest => simp [h c (by simp)]
  | cons c cs ih =>
    simp only [List.cons_append, List.dropWhile_cons]
    split
    · exact ih
    · rfl

section Local

variable {group : Bool} {rest : Text}

private theorem Delimited.not_digit (h : Delimited group rest) :
    ∀ c ∈ rest.head?, c.isDigit = false := by
  intro c hc
  have := h c hc
  simp only [numeralChar, Bool.or_eq_false_iff] at this
  exact this.1.1

private theorem Delimited.ne {d : Char} (hd : numeralChar group d = true)
    (h : Delimited group rest) : ∀ c ∈ rest.head?, c ≠ d := by
  rintro c hc rfl
  simp [h c hc] at hd

theorem takeSign_append (h : Delimited group rest) (cs : Text) :
    takeSign (cs ++ rest) = ((takeSign cs).1, (takeSign cs).2 ++ rest) := by
  cases cs with
  | cons c cs => simp only [List.cons_append, takeSign]; split_ifs <;> rfl
  | nil =>
    cases rest with
    | nil => rfl
    | cons c rest =>
      have hminus : c ≠ '-' := h.ne (by simp [numeralChar]) c (by simp)
      have hplus : c ≠ '+' := h.ne (by simp [numeralChar]) c (by simp)
      simp [takeSign, hminus, hplus]

theorem scanInt_local : Scanner.Local group scanInt := by
  intro cs rest h
  simp only [scanInt, takeSign_append h, takeWhile_append_stop h.not_digit,
    dropWhile_append_stop h.not_digit]

private theorem takeInteger_append (h : Delimited group rest) (cs : Text) :
    takeInteger group (cs ++ rest) = ((takeInteger group cs).1, (takeInteger group cs).2 ++ rest) := by
  have hstop : ∀ c ∈ rest.head?, (c.isDigit || (group && c == ',')) = false := by
    intro c hc
    have := h c hc
    simp only [numeralChar, Bool.or_eq_false_iff] at this ⊢
    exact ⟨this.1.1, this.2⟩
  cases cs with
  | cons c cs =>
    simp only [List.cons_append, takeInteger]
    split
    · rw [← List.cons_append, takeWhile_append_stop hstop, dropWhile_append_stop hstop]
    · rfl
  | nil =>
    cases rest with
    | nil => rfl
    | cons c rest => simp [takeInteger, h.not_digit c (by simp)]

private theorem takeFraction_append (h : Delimited group rest) (cs : Text) :
    takeFraction (cs ++ rest) = ((takeFraction cs).1, (takeFraction cs).2 ++ rest) := by
  cases cs with
  | cons c cs =>
    simp only [List.cons_append, takeFraction]
    split
    · rw [takeWhile_append_stop h.not_digit, dropWhile_append_stop h.not_digit]
    · rfl
  | nil =>
    cases rest with
    | nil => rfl
    | cons c rest =>
      have : c ≠ '.' := h.ne (by simp [numeralChar]) c (by simp)
      simp [takeFraction, this]

private theorem takeExponent_local : Scanner.Local group takeExponent := by
  intro cs rest h
  cases cs with
  | cons c cs =>
    simp only [List.cons_append, takeExponent]
    split
    · exact scanInt_local cs rest h
    · rfl
  | nil =>
    cases rest with
    | nil => rfl
    | cons c rest =>
      have he : c ≠ 'e' := h.ne (by simp [numeralChar]) c (by simp)
      have hE : c ≠ 'E' := h.ne (by simp [numeralChar]) c (by simp)
      simp [takeExponent, he, hE]

theorem scanDecimal_local : Scanner.Local group (scanDecimal group) := by
  intro cs rest h
  simp only [scanDecimal, takeSign_append h, takeInteger_append h, takeFraction_append h,
    takeExponent_local _ _ h]
  split <;> rfl

end Local

/-! ## Whole numerals -/

section Whole

variable {α : Type} {scan : Scanner α} {group : Bool} {tok : Text} {v : α}

theorem Scanner.whole_eq_some_iff : scan.whole tok = some v ↔ scan tok = (some v, []) := by
  unfold Scanner.whole
  constructor
  · intro h
    split at h
    · rename_i hrest
      rw [← h, ← hrest]
    · simp at h
  · intro h
    simp [h]

/-- A numeral in front of a delimiter is read as a whole. -/
theorem Scanner.Local.read (hlocal : Scanner.Local group scan) (h : scan.whole tok = some v)
    {rest : Text} (hrest : Delimited group rest) : scan (tok ++ rest) = (some v, rest) := by
  rw [hlocal tok rest hrest, Scanner.whole_eq_some_iff.mp h]
  rfl

/-- No character inside a numeral is a delimiter: the scanner would have
    stopped there. -/
theorem Scanner.Local.numeralChar (hlocal : Scanner.Local group scan)
    (h : scan.whole tok = some v) : ∀ c ∈ tok, Decimal.numeralChar group c = true := by
  intro c hc
  by_contra hdelim
  obtain ⟨l₁, l₂, rfl⟩ := List.append_of_mem hc
  have hrest : Delimited group (c :: l₂) := by simpa using hdelim
  have hscan := hlocal l₁ (c :: l₂) hrest
  rw [Scanner.whole_eq_some_iff.mp h] at hscan
  simp at hscan

end Whole

theorem intNumeral_ne_nil {tok : Text} {n : Int} (h : intNumeral tok = some n) : tok ≠ [] := by
  rintro rfl
  simp [intNumeral, Scanner.whole, scanInt, takeSign] at h

theorem numeral_ne_nil {tok : Text} {q : ℚ} (h : numeral tok = some q) : tok ≠ [] := by
  rintro rfl
  simp [numeral, Scanner.whole, scanDecimal, takeSign, takeInteger, takeFraction] at h

/-! ## Values of digits -/

theorem digitsValue_snoc (ds : Text) (c : Char) :
    digitsValue (ds ++ [c]) = 10 * digitsValue ds + digitValue c := by
  simp [digitsValue]

theorem digitsValue_append (ds ds' : Text) :
    digitsValue (ds ++ ds') = digitsValue ds * 10 ^ ds'.length + digitsValue ds' := by
  induction ds' using List.reverseRecOn with
  | nil => simp [digitsValue]
  | append_singleton ds' c ih =>
    rw [← List.append_assoc, digitsValue_snoc, digitsValue_snoc, ih, List.length_append,
      List.length_singleton, pow_succ]
    ring

@[simp] theorem digitsValue_replicate_zero (n : Nat) (ds : Text) :
    digitsValue (List.replicate n '0' ++ ds) = digitsValue ds := by
  induction n with
  | zero => rfl
  | succ n ih =>
    rw [← ih]
    rfl

/-! ## Reading back printed integers -/

private theorem digitChar_spec {d : Nat} (h : d < 10) :
    digitValue d.digitChar = d ∧ d.digitChar.isDigit = true := by
  interval_cases d <;> decide

private theorem digitsValue_reverse_digitChars {ds : List Nat} (h : ∀ d ∈ ds, d < 10) :
    digitsValue (ds.map Nat.digitChar).reverse = Nat.ofDigits 10 ds := by
  induction ds with
  | nil => rfl
  | cons d ds ih =>
    have hd : digitValue d.digitChar = d := (digitChar_spec (h d (by simp))).1
    have htail := ih fun d hd => h d (by simp [hd])
    simp only [digitsValue, List.map_cons, List.reverse_cons, List.foldl_append] at htail ⊢
    simp only [htail, List.foldl_cons, List.foldl_nil, hd, Nat.ofDigits_cons]
    omega

theorem digitsValue_showNat (n : Nat) : digitsValue (showNat n) = n := by
  unfold showNat
  split
  · next h => subst h; rfl
  · rw [digitsValue_reverse_digitChars fun d hd => Nat.digits_lt_base (by norm_num) hd,
      Nat.ofDigits_digits]

theorem isDigit_of_mem_showNat {n : Nat} {c : Char} (h : c ∈ showNat n) : c.isDigit = true := by
  unfold showNat at h
  split at h
  · rw [List.mem_singleton.mp h]
    rfl
  · rw [List.mem_reverse, List.mem_map] at h
    obtain ⟨d, hd, rfl⟩ := h
    exact (digitChar_spec (Nat.digits_lt_base (by norm_num) hd)).2

theorem showNat_ne_nil (n : Nat) : showNat n ≠ [] := by
  unfold showNat
  split
  · simp
  · next h => simpa [Nat.digits_ne_nil_iff_ne_zero] using h

theorem length_showNat {n k : Nat} (hlow : 10 ^ k ≤ n) (hhigh : n < 10 ^ (k + 1)) :
    (showNat n).length = k + 1 := by
  have hne : n ≠ 0 := ((Nat.pow_pos (by norm_num)).trans_le hlow).ne'
  unfold showNat
  rw [if_neg hne, List.length_reverse, List.length_map, Nat.length_digits 10 n (by norm_num) hne,
    Nat.log_eq_of_pow_le_of_lt_pow hlow hhigh]

theorem scanInt_digits {negative : Bool} {cs digits : Text}
    (hsign : takeSign cs = (negative, digits)) (hne : digits ≠ [])
    (hdigits : ∀ c ∈ digits, c.isDigit = true) :
    scanInt cs = (some (signed negative (digitsValue digits)), []) := by
  have htake : digits.takeWhile Char.isDigit = digits := List.takeWhile_eq_self_iff.mpr hdigits
  have hdrop : digits.dropWhile Char.isDigit = [] := List.dropWhile_eq_nil_iff.mpr hdigits
  simp [scanInt, hsign, htake, hdrop, hne]

private theorem takeSign_of_digit {c : Char} {cs : Text} (h : c.isDigit = true) :
    takeSign (c :: cs) = (false, c :: cs) := by
  have hminus : c ≠ '-' := by rintro rfl; simp at h
  have hplus : c ≠ '+' := by rintro rfl; simp at h
  simp [takeSign, hminus, hplus]

/-- Printed integers are read back. -/
theorem intNumeral_showInt (n : Int) : intNumeral (showInt n) = some n := by
  have hdigits : ∀ c ∈ showNat n.natAbs, c.isDigit = true := fun c => isDigit_of_mem_showNat
  unfold intNumeral
  rw [Scanner.whole_eq_some_iff]
  unfold showInt
  split
  · have hsign : takeSign ('-' :: showNat n.natAbs) = (true, showNat n.natAbs) := rfl
    rw [scanInt_digits hsign (showNat_ne_nil _) hdigits, digitsValue_showNat]
    simp only [signed, if_true, Prod.mk.injEq, Option.some.injEq, and_true]
    omega
  · have hsign : takeSign (showNat n.natAbs) = (false, showNat n.natAbs) := by
      cases hs : showNat n.natAbs with
      | nil => exact absurd hs (showNat_ne_nil _)
      | cons c cs => exact takeSign_of_digit (hdigits c (by simp [hs]))
    rw [scanInt_digits hsign (showNat_ne_nil _) hdigits, digitsValue_showNat]
    simp only [signed, Bool.false_eq_true, if_false, Prod.mk.injEq, Option.some.injEq, and_true]
    omega

/-! ## Numerals from their parts -/

/-- Digits up to what is no digit are the integer part. -/
theorem takeInteger_digits {cs rest : Text} (hdigits : ∀ c ∈ cs, c.isDigit = true)
    (hstop : ∀ c ∈ rest.head?, c.isDigit = false) : takeInteger false (cs ++ rest) = (cs, rest) := by
  have hinside : (fun c : Char => c.isDigit || (false && c == ',')) = Char.isDigit := by
    funext c
    simp
  cases cs with
  | nil =>
    cases rest with
    | nil => rfl
    | cons c rest =>
      have hdigit : ¬ c.isDigit = true := by simp [hstop c (by simp)]
      exact if_neg hdigit
  | cons c cs =>
    simp only [List.cons_append, takeInteger, if_pos (hdigits c List.mem_cons_self), hinside]
    rw [← List.cons_append, takeWhile_append_stop hstop, dropWhile_append_stop hstop,
      List.takeWhile_eq_self_iff.mpr hdigits, List.dropWhile_eq_nil_iff.mpr hdigits,
      List.filter_eq_self.mpr hdigits, List.nil_append]

/-- A decimal point and the digits behind it, nothing if there are none. -/
def point (fraction : Text) : Text := if fraction = [] then [] else '.' :: fraction

theorem takeFraction_point {fraction rest : Text} (hdigits : ∀ c ∈ fraction, c.isDigit = true)
    (hstop : ∀ c ∈ rest.head?, c.isDigit = false ∧ c ≠ '.') :
    takeFraction (point fraction ++ rest) = (fraction, rest) := by
  have hdigit : ∀ c ∈ rest.head?, c.isDigit = false := fun c hc => (hstop c hc).1
  unfold point
  split
  · next hempty =>
    rw [hempty]
    cases rest with
    | nil => rfl
    | cons c rest => simp [takeFraction, (hstop c (by simp)).2]
  · simp only [List.cons_append, takeFraction, if_true]
    rw [takeWhile_append_stop hdigit, dropWhile_append_stop hdigit,
      List.takeWhile_eq_self_iff.mpr hdigits, List.dropWhile_eq_nil_iff.mpr hdigits, List.nil_append]

/-- The numeral with these parts. -/
theorem numeral_parts (negative : Bool) {integer fraction exponentText : Text} {exponent : Int}
    (hne : integer ≠ []) (hinteger : ∀ c ∈ integer, c.isDigit = true)
    (hfraction : ∀ c ∈ fraction, c.isDigit = true)
    (hexponent : takeExponent exponentText = (some exponent, []))
    (hstop : ∀ c ∈ exponentText.head?, c.isDigit = false ∧ c ≠ '.') :
    numeral ((if negative then ['-'] else []) ++ (integer ++ (point fraction ++ exponentText))) =
      some (decimalValue negative integer fraction exponent) := by
  have hsign : takeSign ((if negative then ['-'] else []) ++
      (integer ++ (point fraction ++ exponentText))) =
        (negative, integer ++ (point fraction ++ exponentText)) := by
    cases negative with
    | true => rfl
    | false =>
      obtain ⟨c, cs, rfl⟩ := List.exists_cons_of_ne_nil hne
      exact takeSign_of_digit (hinteger c List.mem_cons_self)
  have hpoint : ∀ c ∈ (point fraction ++ exponentText).head?, c.isDigit = false := by
    unfold point
    split
    · exact fun c hc => (hstop c hc).1
    · simp
  unfold numeral
  rw [Scanner.whole_eq_some_iff]
  simp only [scanDecimal, hsign, takeInteger_digits hinteger hpoint,
    takeFraction_point hfraction hstop, hne, false_and, if_false, hexponent, Option.map_some]

/-! ## Integers as decimals -/

/-- An integer is a decimal of the same value. -/
theorem numeral_of_intNumeral {tok : Text} {n : Int} (h : intNumeral tok = some n) :
    numeral tok = some (n : ℚ) := by
  have hscan := Scanner.whole_eq_some_iff.mp h
  simp only [scanInt, Prod.mk.injEq] at hscan
  obtain ⟨hvalue, hrest⟩ := hscan
  have hdigits : ∀ c ∈ (takeSign tok).2, c.isDigit = true := List.dropWhile_eq_nil_iff.mp hrest
  rw [List.takeWhile_eq_self_iff.mpr hdigits] at hvalue
  split at hvalue
  · cases hvalue
  · next hne =>
    obtain rfl := Option.some.inj hvalue
    have hinteger : takeInteger false (takeSign tok).2 = ((takeSign tok).2, []) := by
      have happend := @takeInteger_digits _ [] hdigits (by simp)
      rwa [List.append_nil] at happend
    unfold numeral
    rw [Scanner.whole_eq_some_iff]
    simp only [scanDecimal, hinteger, takeFraction, takeExponent, hne, false_and, if_false,
      Option.map_some, decimalValue, digitsValue]
    cases (takeSign tok).1 <;> simp [signed]

/-! ## Grouped digits -/

private theorem takeWhile_congr_mem {p q : Char → Bool} {cs : Text}
    (h : ∀ c ∈ cs, p c = q c) :
    cs.takeWhile p = cs.takeWhile q ∧ cs.dropWhile p = cs.dropWhile q := by
  induction cs with
  | nil => simp
  | cons c cs ih =>
    obtain ⟨htake, hdrop⟩ := ih fun c hc => h c (by simp [hc])
    simp [List.takeWhile_cons, List.dropWhile_cons, h c (by simp), htake, hdrop]

private theorem takeInteger_of_no_comma {cs : Text} (h : ',' ∉ cs) :
    takeInteger true cs = takeInteger false cs := by
  cases cs with
  | nil => rfl
  | cons c cs =>
    have hinside : ∀ d ∈ c :: cs,
        (d.isDigit || (true && d == ',')) = (d.isDigit || (false && d == ',')) := by
      intro d hd
      have : d ≠ ',' := fun heq => h (heq ▸ hd)
      simp [this]
    obtain ⟨htake, hdrop⟩ := takeWhile_congr_mem hinside
    simp only [takeInteger, htake, hdrop]

/-- Without commas the grouped scanner is the plain one. -/
theorem scanDecimal_of_no_comma {cs : Text} (h : ',' ∉ cs) :
    scanDecimal true cs = scanDecimal false cs := by
  have hsign : ',' ∉ (takeSign cs).2 := by
    cases cs with
    | nil => simp [takeSign]
    | cons c cs =>
      simp only [List.mem_cons, not_or] at h
      simp only [takeSign]
      split_ifs <;> simp [h.1, h.2]
  simp only [scanDecimal, takeInteger_of_no_comma hsign]

end Decimal
