-- SUMMARY: Formatted input of a `std::istream`: the state bits, `>>` into an int or a double, and what `>>` does along a text of separated tokens.
import SmoothMotion.Lib.Decimal

open Decimal

/-!
# Formatted input streams

The characters still to be read and the two state bits formatted extraction
sets. `stream >> value` first skips white space; at the end of the text this
fails and `value` is not touched. Otherwise it takes the characters of a
numeral, stores `0` when they are none and a bound when the numeral is beyond it,
and notes the end of the text when the numeral ran up to it. A stream converts to
`true` as long as nothing failed: having reached the end is no failure.
-/

structure IStream where
  rest : Text
  eofbit : Bool
  failbit : Bool

namespace IStream

def ofText (text : Text) : IStream := ⟨text, false, false⟩

/-- `operator bool`. -/
def ok (s : IStream) : Bool := !s.failbit

def good (s : IStream) : Bool := !s.eofbit && !s.failbit

/-- `isspace` in the classic locale. -/
def isSpace (c : Char) : Bool := c ∈ [' ', '\t', '\n', '\x0b', '\x0c', '\r']

/-- The sentry of a formatted extraction: skip white space. -/
def sentry (s : IStream) : IStream :=
  if s.good then
    let rest := s.rest.dropWhile isSpace
    { rest := rest, eofbit := rest.isEmpty, failbit := rest.isEmpty }
  else { s with failbit := true }

/-- What one extraction takes off the stream: nothing if the sentry failed,
    else what the scanner makes of the characters. -/
def extract {α : Type} (scan : Scanner α) (s : IStream) : IStream × Option (Option α) :=
  let s := s.sentry
  if s.ok then
    let (value, rest) := scan s.rest
    ({ rest := rest, eofbit := rest.isEmpty, failbit := value.isNone }, some value)
  else (s, none)

/-- `stream >> value` for an `int`. A numeral outside the range of `int` stores
    the nearest bound and fails. -/
def extractInt (s : IStream) (value : Int32) : IStream × Int32 :=
  match s.extract scanInt with
  | (s, none) => (s, value)
  | (s, some none) => (s, 0)
  | (s, some (some n)) =>
    if n < Int32.minValue.toInt then ({ s with failbit := true }, Int32.minValue)
    else if Int32.maxValue.toInt < n then ({ s with failbit := true }, Int32.maxValue)
    else (s, Int32.ofInt n)

/-- The largest `double`. -/
def maxDouble : Nat := (2 ^ 53 - 1) * 2 ^ 971

/-- From here on a number is rounded to no `double`: half a unit in the last place
    above the largest, where the tie would go to the even `2 ^ 1024`. -/
def doubleBound : Nat := (2 ^ 54 - 1) * 2 ^ 970

/-- `stream >> value` for a `double`, in exact arithmetic. A numeral outside the
    range of `double` stores the nearest bound and fails. -/
def extractDouble {K : Type} [Field K] (s : IStream) (value : K) : IStream × K :=
  match s.extract (scanDecimal false) with
  | (s, none) => (s, value)
  | (s, some none) => (s, 0)
  | (s, some (some q)) =>
    if q ≤ -doubleBound then ({ s with failbit := true }, -maxDouble)
    else if doubleBound ≤ q then ({ s with failbit := true }, maxDouble)
    else (s, q)

/-- The numeral `tok` is the text of an `int`. -/
def intToken (tok : Text) : Option Int32 :=
  (intNumeral tok).bind fun n =>
    if n < Int32.minValue.toInt ∨ Int32.maxValue.toInt < n then none else some (Int32.ofInt n)

/-- The numeral `tok` is the text of a `double`. -/
def doubleToken (K : Type) [Field K] (tok : Text) : Option K :=
  (numeral tok).bind fun q =>
    if q ≤ -doubleBound ∨ doubleBound ≤ q then none else some (q : K)

/-- A numeral for an integer that is no `int`. -/
def IntOverflow (tok : Text) : Prop := (intNumeral tok).isSome ∧ intToken tok = none

/-- A numeral for a number that is no `double`. -/
def DoubleOverflow (K : Type) [Field K] (tok : Text) : Prop :=
  (numeral tok).isSome ∧ doubleToken K tok = none

/-- A printed integer is a token for it. -/
theorem intToken_showInt {n : Int} (hmin : Int32.minValue.toInt ≤ n)
    (hmax : n ≤ Int32.maxValue.toInt) : intToken (showInt n) = some (Int32.ofInt n) := by
  have hrange : ¬ (n < Int32.minValue.toInt ∨ Int32.maxValue.toInt < n) := by omega
  unfold intToken
  rw [intNumeral_showInt, Option.bind_some, if_neg hrange]

/-- A count is an `int` below `2 ^ 31`. -/
theorem intToken_of_lt {tok : Text} {n : Nat} (h : intNumeral tok = some (n : Int))
    (hlt : n < 2 ^ 31) : ∃ v : Int32, intToken tok = some v ∧ v.toInt = n := by
  have hmin : Int32.minValue.toInt = -2 ^ 31 := by decide
  have hmax : Int32.maxValue.toInt = 2 ^ 31 - 1 := by decide
  have hrange : ¬ ((n : Int) < Int32.minValue.toInt ∨ Int32.maxValue.toInt < (n : Int)) := by omega
  refine ⟨Int32.ofInt n, ?_, Int32.toInt_ofInt_of_le (by omega) (by omega)⟩
  rw [intToken, h, Option.bind_some, if_neg hrange]

/-! ## Texts of separated tokens -/

/-- `text` is made of the tokens in order, each ended by white space or by the
    end of the text; white space in front of them and behind them is free. -/
inductive Tokens : List Text → Text → Prop where
  | nil {ws : Text} (hws : ∀ c ∈ ws, isSpace c = true) : Tokens [] ws
  | cons {ws tok rest : Text} {toks : List Text} (hws : ∀ c ∈ ws, isSpace c = true)
      (hend : ∀ c ∈ rest.head?, isSpace c = true) (htoks : Tokens toks rest) :
      Tokens (tok :: toks) (ws ++ (tok ++ rest))

/-- White space in front of a text of tokens is skipped. -/
theorem Tokens.space_cons {toks : List Text} {text : Text} (h : Tokens toks text) {c : Char}
    (hc : isSpace c = true) : Tokens toks (c :: text) := by
  cases h with
  | nil hws => exact .nil (by simpa [hc] using hws)
  | @cons ws _ _ _ hws hend htoks =>
    rw [← List.cons_append]
    exact .cons (by simpa [hc] using hws) hend htoks

/-- The tokens written one after the other, each with a blank behind it. -/
def terminated (toks : List Text) : Text := toks.flatMap (· ++ [' '])

@[simp] theorem terminated_nil : terminated [] = [] := rfl

@[simp] theorem terminated_cons (tok : Text) (toks : List Text) :
    terminated (tok :: toks) = tok ++ ' ' :: terminated toks := by
  simp [terminated]

@[simp] theorem terminated_append (toks toks' : List Text) :
    terminated (toks ++ toks') = terminated toks ++ terminated toks' := by
  simp [terminated]

theorem length_le_length_terminated (toks : List Text) : toks.length ≤ (terminated toks).length := by
  induction toks with
  | nil => exact Nat.zero_le _
  | cons tok toks ih =>
    simp only [terminated_cons, List.length_append, List.length_cons]
    omega

theorem terminated_flatMap {α : Type} (l : List α) (f : α → List Text) :
    terminated (l.flatMap f) = l.flatMap fun a => terminated (f a) := by
  simp [terminated, List.flatMap_assoc]

theorem Tokens.of_terminated (toks : List Text) : Tokens toks (terminated toks) := by
  induction toks with
  | nil => exact .nil (by simp)
  | cons tok toks ih =>
    have htail : Tokens toks (' ' :: terminated toks) := ih.space_cons rfl
    have hcons : Tokens (tok :: toks) ([] ++ (tok ++ ' ' :: terminated toks)) :=
      .cons (by simp) (by simp [isSpace]) htail
    simpa using hcons

/-- Nothing has failed yet and the tokens are still to be read. -/
structure At (s : IStream) (toks : List Text) : Prop where
  failbit : s.failbit = false
  tokens : Tokens toks s.rest
  eof : s.eofbit = true → s.rest = []

theorem At.ofText {toks : List Text} {text : Text} (h : Tokens toks text) :
    (ofText text).At toks :=
  ⟨rfl, h, by simp [IStream.ofText]⟩

theorem At.ok {s : IStream} {toks : List Text} (h : s.At toks) : s.ok = true := by
  simp [IStream.ok, h.failbit]

private theorem numeralChar_of_isSpace {c : Char} (h : isSpace c = true) :
    numeralChar false c = false := by
  simp only [isSpace, List.mem_cons, List.not_mem_nil, or_false, decide_eq_true_eq] at h
  rcases h with rfl | rfl | rfl | rfl | rfl | rfl <;> decide

private theorem delimited_of_space {rest : Text} (h : ∀ c ∈ rest.head?, isSpace c = true) :
    Delimited false rest := fun c hc => numeralChar_of_isSpace (h c hc)

section Extract

variable {α : Type} {scan : Scanner α} {s : IStream} {tok : Text} {toks : List Text} {v : α}

/-- Along a text of tokens, one extraction reads one token. -/
theorem At.extract_cons (hs : s.At (tok :: toks)) (hlocal : Scanner.Local false scan)
    (hne : tok ≠ []) (hv : scan.whole tok = some v) :
    ∃ s', s.extract scan = (s', some (some v)) ∧ s'.At toks := by
  obtain ⟨hfail, htokens, heof⟩ := hs
  generalize hrest : s.rest = text at htokens heof
  cases htokens with
  | @cons ws _ rest _ hws hend htoks =>
    have hchars := hlocal.numeralChar hv
    obtain ⟨c, cs, rfl⟩ := List.exists_cons_of_ne_nil hne
    have hc : isSpace c = false := by
      by_contra hspace
      have := numeralChar_of_isSpace (by simpa using hspace)
      simp [hchars c (by simp)] at this
    have hgood : s.good = true := by
      cases heofbit : s.eofbit with
      | true => simp at heof; exact absurd heofbit (by simpa using heof)
      | false => simp [good, hfail, heofbit]
    have hskip : s.rest.dropWhile isSpace = (c :: cs) ++ rest := by
      rw [hrest, List.dropWhile_append_of_pos hws]
      simp [hc]
    have hsentry : s.sentry = ⟨(c :: cs) ++ rest, false, false⟩ := by
      simp [sentry, hgood, hskip]
    refine ⟨⟨rest, rest.isEmpty, false⟩, ?_, rfl, htoks, by simp⟩
    simp only [extract, hsentry, IStream.ok, hlocal.read hv (delimited_of_space hend)]
    simp

/-- With no token left an extraction fails without touching its target. -/
theorem At.extract_nil (hs : s.At []) (scan : Scanner α) :
    ∃ s', s.extract scan = (s', none) ∧ s'.ok = false := by
  obtain ⟨hfail, htokens, heof⟩ := hs
  have hspace : s.rest.dropWhile isSpace = [] := by
    generalize s.rest = text at htokens
    cases htokens with
    | nil hws => exact List.dropWhile_eq_nil_iff.mpr hws
  have hsentry : s.sentry.ok = false := by
    unfold sentry
    split <;> simp [IStream.ok, hspace]
  exact ⟨s.sentry, by simp [extract, hsentry], hsentry⟩

end Extract

section Typed

variable {K : Type} [Field K] {s : IStream} {tok : Text} {toks : List Text}

theorem At.extractInt_cons (hs : s.At (tok :: toks)) {n : Int32} (hn : intToken tok = some n)
    (value : Int32) : ∃ s', s.extractInt value = (s', n) ∧ s'.At toks := by
  obtain ⟨i, hi, hrange⟩ := Option.bind_eq_some_iff.mp hn
  obtain ⟨s', hextract, hs'⟩ := hs.extract_cons scanInt_local (intNumeral_ne_nil hi) hi
  refine ⟨s', ?_, hs'⟩
  split at hrange
  · simp at hrange
  · next hbounds =>
    simp only [not_or] at hbounds
    simp only [extractInt, hextract, hbounds.1, hbounds.2, if_false]
    simpa using hrange

theorem At.extractInt_nil (hs : s.At []) (value : Int32) :
    ∃ s', s.extractInt value = (s', value) ∧ s'.ok = false := by
  obtain ⟨s', hextract, hs'⟩ := hs.extract_nil scanInt
  exact ⟨s', by simp [extractInt, hextract], hs'⟩

theorem At.extractDouble_cons (hs : s.At (tok :: toks)) {x : K} (hx : doubleToken K tok = some x)
    (value : K) : ∃ s', s.extractDouble value = (s', x) ∧ s'.At toks := by
  obtain ⟨q, hq, hrange⟩ := Option.bind_eq_some_iff.mp hx
  obtain ⟨s', hextract, hs'⟩ := hs.extract_cons scanDecimal_local (numeral_ne_nil hq) hq
  refine ⟨s', ?_, hs'⟩
  split at hrange
  · simp at hrange
  · next hbounds =>
    simp only [not_or] at hbounds
    simp only [extractDouble, hextract, hbounds.1, hbounds.2, if_false]
    simpa using hrange

theorem At.extractDouble_nil (hs : s.At []) (value : K) :
    ∃ s', s.extractDouble value = (s', value) ∧ s'.ok = false := by
  obtain ⟨s', hextract, hs'⟩ := hs.extract_nil (scanDecimal false)
  exact ⟨s', by simp [extractDouble, hextract], hs'⟩

/-- A count from `2 ^ 31` on is read as the largest `int`. -/
theorem At.extractInt_above (hs : s.At (tok :: toks)) {n : Nat}
    (hn : intNumeral tok = some (n : Int)) (hle : 2 ^ 31 ≤ n) (value : Int32) :
    ∃ s' v, s.extractInt value = (s', v) ∧ v.toInt = (2 ^ 31 - 1 : Nat) ∧ s'.ok = false := by
  have hmin : Int32.minValue.toInt = -2 ^ 31 := by decide
  have hmax : Int32.maxValue.toInt = 2 ^ 31 - 1 := by decide
  obtain ⟨s', hextract, -⟩ := hs.extract_cons scanInt_local (intNumeral_ne_nil hn) hn
  refine ⟨{ s' with failbit := true }, Int32.maxValue, ?_, by decide, rfl⟩
  simp only [extractInt, hextract]
  rw [if_neg (by omega), if_pos (by omega)]

/-- A numeral out of range is taken off the stream, which fails. -/
theorem At.extractInt_overflow (hs : s.At (tok :: toks)) (h : IntOverflow tok) (value : Int32) :
    (s.extractInt value).1.ok = false := by
  obtain ⟨hnumeral, htoken⟩ := h
  obtain ⟨n, hn⟩ := Option.isSome_iff_exists.mp hnumeral
  obtain ⟨s', hextract, -⟩ := hs.extract_cons scanInt_local (intNumeral_ne_nil hn) hn
  simp only [intToken, hn, Option.bind_some, ite_eq_left_iff, reduceCtorEq, imp_false,
    Decidable.not_not] at htoken
  simp only [extractInt, hextract]
  split
  · rfl
  · next hmin => rw [if_pos (htoken.resolve_left hmin), IStream.ok, Bool.not_true]

theorem At.extractDouble_overflow (hs : s.At (tok :: toks)) (h : DoubleOverflow K tok)
    (value : K) : (s.extractDouble value).1.ok = false := by
  obtain ⟨hnumeral, htoken⟩ := h
  obtain ⟨q, hq⟩ := Option.isSome_iff_exists.mp hnumeral
  obtain ⟨s', hextract, -⟩ := hs.extract_cons scanDecimal_local (numeral_ne_nil hq) hq
  simp only [doubleToken, hq, Option.bind_some, ite_eq_left_iff, reduceCtorEq, imp_false,
    Decidable.not_not] at htoken
  simp only [extractDouble, hextract]
  split
  · rfl
  · next hmin => rw [if_pos (htoken.resolve_left hmin), IStream.ok, Bool.not_true]

end Typed

/-! ## Where reading ends -/

/-- The tokens are still to be read, and what is behind them fails: it is a token
    that is refused, or the text ends. -/
def Cut (s : IStream) (refused : Text → Prop) (toks : List Text) : Prop :=
  ∃ rest, s.At (toks ++ rest) ∧ ∀ tok ∈ rest.head?, refused tok

section Cut

variable {K : Type} [Field K] {s : IStream} {refused : Text → Prop} {toks : List Text}

theorem Cut.ok (h : s.Cut refused toks) : s.ok = true := by
  obtain ⟨rest, hs, -⟩ := h
  exact hs.ok

theorem Cut.extractInt (h : s.Cut IntOverflow []) (value : Int32) :
    (s.extractInt value).1.ok = false := by
  obtain ⟨rest, hs, hrefused⟩ := h
  cases rest with
  | nil =>
    obtain ⟨s', hread, hs'⟩ := At.extractInt_nil hs value
    rw [hread]
    exact hs'
  | cons tok rest => exact At.extractInt_overflow hs (hrefused tok (by simp)) value

theorem Cut.extractDouble (h : s.Cut (DoubleOverflow K) []) (value : K) :
    (s.extractDouble value).1.ok = false := by
  obtain ⟨rest, hs, hrefused⟩ := h
  cases rest with
  | nil =>
    obtain ⟨s', hread, hs'⟩ := At.extractDouble_nil hs value
    rw [hread]
    exact hs'
  | cons tok rest => exact At.extractDouble_overflow hs (hrefused tok (by simp)) value

end Cut

end IStream
