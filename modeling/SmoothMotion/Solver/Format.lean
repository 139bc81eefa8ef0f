-- SUMMARY: What ReadFile accepts: files with all their numbers, each in its range, and some that lack the last one.
import SmoothMotion.Solver.ReadFile

open Decimal

/-!
# The format of the input

A file of numerals is accepted if all its numbers are there and each of them is in
the range of its type. Where the first of them is missing or refused, the file
might as well end: only if that is its last number is it accepted all the same.
-/

/-- `numBones * frames * 3` for counts whose product fits an `int`. -/
theorem numParameters_toInt {numBones frames : Int32} {B F : Nat} (hB : numBones.toInt = B)
    (hF : frames.toInt = F) (hfit : 3 * B * F < 2 ^ 31) :
    (numBones * frames * 3).toInt = (B * F * 3 : Nat) := by
  have hle : B * F ≤ 3 * B * F := by rw [Nat.mul_assoc]; omega
  have hBF : (numBones * frames).toInt = (B * F : Nat) := by
    rw [Int32.toInt_mul, hB, hF, ← Nat.cast_mul, Int.bmod_eq_of_le] <;> omega
  have hthree : (3 : Int32).toInt = (3 : Nat) := rfl
  rw [Int32.toInt_mul, hBF, hthree, ← Nat.cast_mul, Int.bmod_eq_of_le]
  · omega
  · have : B * F * 3 = 3 * B * F := by ring
    omega

section File

variable {K : Type} [Scalar K]

/-- The vectors hold exactly the numerals behind the header, in order; what is out of
    range is held by none. -/
structure Input.Spells (input : Input K) (B F C : Nat) (toks : List Text) : Prop where
  positions : input.positions.map some = (toks.take (B * F * 3)).map (IStream.doubleToken K)
  colliders : (input.colliders.flatMap Collider.toList).map some =
    ((toks.drop (B * F * 3)).take (C * 6)).map (IStream.doubleToken K)
  parents : input.parents.map some =
    ((toks.drop (B * F * 3 + C * 6)).take B).map IStream.intToken

/-- Numerals where a number is read, integers where an integer is read. -/
structure Numerals (B F C : Nat) (toks : List Text) : Prop where
  double : ∀ tok ∈ toks.take (B * F * 3 + C * 6), (numeral tok).isSome
  int : ∀ tok ∈ (toks.drop (B * F * 3 + C * 6)).take B, (intNumeral tok).isSome

/-- All numerals that are read are in the range of the type they are read as. -/
structure InRange (K : Type) [Field K] (B F C : Nat) (toks : List Text) : Prop where
  double : ∀ tok ∈ toks.take (B * F * 3 + C * 6), (IStream.doubleToken K tok).isSome
  int : ∀ tok ∈ (toks.drop (B * F * 3 + C * 6)).take B, (IStream.intToken tok).isSome

/-- What is refused behind `n` numbers. -/
def RefusedAt (K : Type) [Field K] (B F C n : Nat) : Text → Prop :=
  if n < B * F * 3 + C * 6 then IStream.DoubleOverflow K else IStream.IntOverflow

variable {s : IStream} {toks : List Text} {numBones frames numColliders : Int32} {B F C : Nat}

/-- With a number for every element `ReadFile` returns them all. -/
theorem readSections_full (memory : Uninitialised K) (hB : numBones.toInt = B)
    (hF : frames.toInt = F) (hC : numColliders.toInt = C) (hfit : 3 * B * F < 2 ^ 31)
    (hlen : B * F * 3 + C * 6 + B ≤ toks.length) (hvalid : InRange K B F C toks) (hs : s.At toks) :
    ∃ input, readSections s memory numBones frames numColliders = .ok input ∧
      input.Spells B F C toks ∧ input.numBones = numBones ∧ input.frames = frames ∧
      input.colliders.length = C := by
  have hdouble := hvalid.double
  rw [List.take_add] at hdouble
  obtain ⟨s₁, positions, hread₁, hpositions, -, hs₁⟩ := Reads.double.readVector_full
    (numParameters_toInt hB hF hfit) (0 : K) "File ended before all bone positions were found"
    (by omega) (fun tok h => hdouble tok (List.mem_append_left _ (by simpa using h))) hs
  obtain ⟨s₂, colliders, hread₂, hcolliders, hlength, hs₂⟩ := Reads.collider.readVector_full
    hC memory.collider "File ended before all colliders were found"
    (by rw [List.length_drop]; omega)
    (fun tok h => hdouble tok (List.mem_append_right _ (by simpa using h))) hs₁
  rw [List.drop_drop, Nat.mul_one] at hs₂
  obtain ⟨s₃, parents, hread₃, hparents, -, -⟩ := Reads.int.readVector_full
    hB 0 "File ended before all bone parents were found" (by rw [List.length_drop]; omega)
    (fun tok h => hvalid.int tok (by simpa using h)) hs₂
  rw [Nat.mul_one] at hpositions hcolliders hparents
  refine ⟨⟨colliders, positions, frames, numBones, parents⟩, ?_, ?_, rfl, rfl, hlength⟩
  · simp only [readSections, hread₁, hread₂, hread₃, Except.ok_bind]
    rfl
  · exact ⟨by simpa using hpositions, hcolliders, by simpa using hparents⟩

/-- With exactly one number missing or refused it returns all the same. -/
theorem readSections_last (memory : Uninitialised K) (hB : numBones.toInt = B)
    (hF : frames.toInt = F) (hC : numColliders.toInt = C) (hfit : 3 * B * F < 2 ^ 31)
    (hlen : toks.length + 1 = B * F * 3 + C * 6 + B) (hvalid : InRange K B F C toks)
    (hs : s.Cut (RefusedAt K B F C toks.length) toks) :
    ∃ input, readSections s memory numBones frames numColliders = .ok input := by
  have hdouble := hvalid.double
  rw [List.take_add] at hdouble
  have hB0 : B = 0 → B * F * 3 = 0 := by rintro rfl; simp
  obtain ⟨s₁, positions, hread₁, hs₁⟩ := Reads.double.readVector_cut
    (numParameters_toInt hB hF hfit) (0 : K) "File ended before all bone positions were found"
    (by omega) (fun tok h => hdouble tok (List.mem_append_left _ (by simpa using h))) hs
  rw [Nat.mul_one] at hs₁
  rcases Nat.eq_zero_or_pos B with hzero | hpos
  · -- without bones the missing number is the last of the colliders
    have hparams := hB0 hzero
    rw [RefusedAt, if_pos (by omega)] at hs₁
    obtain ⟨s₂, colliders, hread₂, hs₂⟩ := Reads.collider.readVector_last
      hC memory.collider "File ended before all colliders were found"
      (by rw [List.length_drop]; omega)
      (fun tok h => hdouble tok (List.mem_append_right _ (by
        rwa [List.take_of_length_le (by rw [List.length_drop]; omega)]))) hs₁
    refine ⟨⟨colliders, positions, frames, numBones, []⟩, ?_⟩
    simp only [readSections, hread₁, hread₂, Except.ok_bind,
      readVector_stopped readInt hs₂ hB, if_pos hzero]
    rfl
  · rw [RefusedAt, if_neg (by omega)] at hs₁
    obtain ⟨s₂, colliders, hread₂, hs₂⟩ := Reads.collider.readVector_cut
      hC memory.collider "File ended before all colliders were found"
      (by rw [List.length_drop]; omega)
      (fun tok h => hdouble tok (List.mem_append_right _ h)) hs₁
    rw [List.drop_drop] at hs₂
    obtain ⟨s₃, parents, hread₃, -⟩ := Reads.int.readVector_last
      hB 0 "File ended before all bone parents were found" (by rw [List.length_drop]; omega)
      (fun tok h => hvalid.int tok (by
        rwa [List.take_of_length_le (by rw [List.length_drop]; omega)])) hs₂
    refine ⟨⟨colliders, positions, frames, numBones, parents⟩, ?_⟩
    simp only [readSections, hread₁, hread₂, hread₃, Except.ok_bind]
    rfl

/-- On a failed stream it does not return if there is a collider to be read. -/
theorem readSections_failed (memory : Uninitialised K) (hB : numBones.toInt = B)
    (hF : frames.toInt = F) (hC : numColliders.toInt = C) (hfit : 3 * B * F < 2 ^ 31)
    (hcolliders : C ≠ 0) (hs : s.ok = false) :
    ∃ e, readSections s memory numBones frames numColliders = .error (.writeErrorAndExit e) := by
  rcases Nat.eq_zero_or_pos (B * F * 3) with hzero | hpos
  · exact ⟨"File ended before all colliders were found", by
      simp only [readSections, readVector_stopped readDouble hs (numParameters_toInt hB hF hfit),
        if_pos hzero, Except.ok_bind, readVector_stopped readCollider hs hC, if_neg hcolliders,
        Except.error_bind]⟩
  · exact ⟨"File ended before all bone positions were found", by
      simp only [readSections, readVector_stopped readDouble hs (numParameters_toInt hB hF hfit),
        if_neg hpos.ne', Except.error_bind]⟩

/-- With more missing it does not return. -/
theorem readSections_short (memory : Uninitialised K) (hB : numBones.toInt = B)
    (hF : frames.toInt = F) (hC : numColliders.toInt = C) (hfit : 3 * B * F < 2 ^ 31)
    (hlen : toks.length + 1 < B * F * 3 + C * 6 + B) (hvalid : InRange K B F C toks)
    (hs : s.Cut (RefusedAt K B F C toks.length) toks) :
    ∃ e, readSections s memory numBones frames numColliders = .error (.writeErrorAndExit e) := by
  have hparams := numParameters_toInt hB hF hfit
  have hdouble := hvalid.double
  have hB0 : B = 0 → B * F * 3 = 0 := by rintro rfl; simp
  -- the section in which the tokens end
  rcases Nat.lt_trichotomy (toks.length + 1) (B * F * 3) with hlt | heq | hgt
  · rw [RefusedAt, if_pos (by omega)] at hs
    obtain ⟨e, he⟩ := Reads.double.readVector_short hparams (0 : K)
      "File ended before all bone positions were found" (by omega)
      (fun tok h => hdouble tok (by rwa [List.take_of_length_le (by omega)])) hs
    exact ⟨e, by simp only [readSections, he, Except.error_bind]⟩
  · rw [RefusedAt, if_pos (by omega)] at hs
    obtain ⟨s₁, positions, hread₁, hs₁⟩ := Reads.double.readVector_last hparams (0 : K)
      "File ended before all bone positions were found" (by omega)
      (fun tok h => hdouble tok (by rwa [List.take_of_length_le (by omega)])) hs
    have hB' : B ≠ 0 := fun h => by have := hB0 h; omega
    simp only [readSections, hread₁, Except.ok_bind, readVector_stopped readCollider hs₁ hC]
    split
    · simp only [Except.ok_bind, readVector_stopped readInt hs₁ hB, if_neg hB', Except.error_bind]
      exact ⟨_, rfl⟩
    · exact ⟨_, rfl⟩
  · rw [List.take_add] at hdouble
    obtain ⟨s₁, positions, hread₁, hs₁⟩ := Reads.double.readVector_cut hparams (0 : K)
      "File ended before all bone positions were found" (by omega)
      (fun tok h => hdouble tok (List.mem_append_left _ (by simpa using h))) hs
    rw [Nat.mul_one] at hs₁
    have hlength : (toks.drop (B * F * 3)).length = toks.length - B * F * 3 := List.length_drop
    have hcollider : ∀ tok ∈ (toks.drop (B * F * 3)).take (C * 6),
        (IStream.doubleToken K tok).isSome := fun tok h => hdouble tok (List.mem_append_right _ h)
    rcases Nat.lt_trichotomy ((toks.drop (B * F * 3)).length + 1) (C * 6) with hlt | heq | hgt
    · rw [RefusedAt, if_pos (by omega)] at hs₁
      rw [List.take_of_length_le (by omega)] at hcollider
      obtain ⟨e, he⟩ := Reads.collider.readVector_short hC memory.collider
        "File ended before all colliders were found" hlt hcollider hs₁
      exact ⟨e, by simp only [readSections, hread₁, he, Except.ok_bind, Except.error_bind]⟩
    · rw [RefusedAt, if_pos (by omega)] at hs₁
      rw [List.take_of_length_le (by omega)] at hcollider
      obtain ⟨s₂, colliders, hread₂, hs₂⟩ := Reads.collider.readVector_last hC memory.collider
        "File ended before all colliders were found" heq hcollider hs₁
      have hB' : B ≠ 0 := by omega
      refine ⟨"File ended before all bone parents were found", ?_⟩
      simp only [readSections, hread₁, hread₂, Except.ok_bind, readVector_stopped readInt hs₂ hB,
        if_neg hB', Except.error_bind]
    · rw [RefusedAt, if_neg (by omega)] at hs₁
      obtain ⟨s₂, colliders, hread₂, hs₂⟩ := Reads.collider.readVector_cut hC memory.collider
        "File ended before all colliders were found" (by omega) hcollider hs₁
      rw [List.drop_drop] at hs₂
      have hint := hvalid.int
      rw [List.take_of_length_le (by rw [List.length_drop]; omega)] at hint
      obtain ⟨e, he⟩ := Reads.int.readVector_short hB 0
        "File ended before all bone parents were found" (by rw [List.length_drop]; omega) hint hs₂
      exact ⟨e, by simp only [readSections, hread₁, hread₂, he, Except.ok_bind,
        Except.error_bind]⟩

/-- The header is read, and the sections from the tokens behind it. -/
theorem readFile_header {text bTok fTok cTok : Text} (memory : Uninitialised K) (frames₀ : Int32)
    (htext : IStream.Tokens (bTok :: fTok :: cTok :: toks) text)
    (hb : IStream.intToken bTok = some numBones) (hf : IStream.intToken fTok = some frames)
    (hc : IStream.intToken cTok = some numColliders) :
    ∃ s, s.At toks ∧ readFile (some text) memory frames₀ =
      readSections s memory numBones frames numColliders := by
  have hs₀ := IStream.At.ofText htext
  obtain ⟨s₁, hread₁, hs₁⟩ := hs₀.extractInt_cons hb 0
  obtain ⟨s₂, hread₂, hs₂⟩ := hs₁.extractInt_cons hf frames₀
  obtain ⟨s₃, hread₃, hs₃⟩ := hs₂.extractInt_cons hc memory.numColliders
  refine ⟨s₃, hs₃, ?_⟩
  simp only [readFile, readInt, Except.ok_bind, hs₀.ok, hs₁.ok, hs₂.ok, if_true, hread₁, hread₂,
    hread₃]

/-- Counts that are no `int`s fail the stream, and then it does not return. -/
theorem readFile_header_overflow {text bTok fTok cTok : Text} (memory : Uninitialised K)
    (frames₀ : Int32) (htext : IStream.Tokens (bTok :: fTok :: cTok :: toks) text)
    (hb : intNumeral bTok = some (B : Int)) (hf : intNumeral fTok = some (F : Int))
    (hc : intNumeral cTok = some (C : Int)) (hfit : 3 * B * F < 2 ^ 31)
    (hcounts : ¬ (B < 2 ^ 31 ∧ F < 2 ^ 31 ∧ C < 2 ^ 31)) :
    ∃ e, readFile (some text) memory frames₀ = .error (.writeErrorAndExit e) := by
  have hs₀ := IStream.At.ofText htext
  by_cases hB : 2 ^ 31 ≤ B
  · obtain ⟨s₁, _, hread₁, -, hs₁⟩ := hs₀.extractInt_above hb hB 0
    refine ⟨"Unexpected end of file\n", ?_⟩
    simp only [readFile, readInt, Except.ok_bind, hs₀.ok, if_true, hread₁, hs₁, Bool.false_eq_true,
      if_false, Except.error_bind]
  obtain ⟨numBones, hbTok, hnumBones⟩ := IStream.intToken_of_lt hb (by omega)
  obtain ⟨s₁, hread₁, hs₁⟩ := hs₀.extractInt_cons hbTok 0
  by_cases hF : 2 ^ 31 ≤ F
  · obtain ⟨s₂, _, hread₂, -, hs₂⟩ := hs₁.extractInt_above hf hF frames₀
    refine ⟨"Unexpected end of file\n", ?_⟩
    simp only [readFile, readInt, Except.ok_bind, hs₀.ok, hs₁.ok, if_true, hread₁, hread₂, hs₂,
      Bool.false_eq_true, if_false, Except.error_bind]
  obtain ⟨frames, hfTok, hframes⟩ := IStream.intToken_of_lt hf (by omega)
  obtain ⟨s₂, hread₂, hs₂⟩ := hs₁.extractInt_cons hfTok frames₀
  obtain ⟨s₃, numColliders, hread₃, hmax, hs₃⟩ :=
    hs₂.extractInt_above hc (by omega) memory.numColliders
  obtain ⟨e, he⟩ := readSections_failed memory hnumBones hframes hmax hfit (by norm_num) hs₃
  refine ⟨e, ?_⟩
  simp only [readFile, readInt, Except.ok_bind, hs₀.ok, hs₁.ok, hs₂.ok, if_true, hread₁, hread₂,
    hread₃, he]

/-- A list with an element that fails `p` begins with elements that do not. -/
private theorem exists_first {p : Text → Bool} {l : List Text} (h : ∃ tok ∈ l, ¬ p tok) :
    ∃ front bad rest, l = front ++ bad :: rest ∧ (∀ tok ∈ front, p tok) ∧ ¬ p bad := by
  cases hrest : l.dropWhile p with
  | nil =>
    obtain ⟨tok, htok, hbad⟩ := h
    exact absurd (List.dropWhile_eq_nil_iff.mp hrest tok htok) hbad
  | cons bad rest =>
    refine ⟨l.takeWhile p, bad, rest, ?_, fun tok htok => List.mem_takeWhile_imp htok, ?_⟩
    · rw [← hrest, List.takeWhile_append_dropWhile]
    · have hbad := List.head?_dropWhile_not p l
      rw [hrest] at hbad
      simpa using hbad

/-- Numerals that are not all in range, cut in front of the first that is not. -/
theorem Numerals.cut (h : Numerals B F C toks) (hrange : ¬ InRange K B F C toks) :
    ∃ front rest, toks = front ++ rest ∧ rest ≠ [] ∧ front.length < B * F * 3 + C * 6 + B ∧
      InRange K B F C front ∧ ∀ tok ∈ rest.head?, RefusedAt K B F C front.length tok := by
  by_cases hdouble : ∀ tok ∈ toks.take (B * F * 3 + C * 6), (IStream.doubleToken K tok).isSome
  · -- all doubles are in range: the first numeral that is not is the one of a parent
    have hint : ∃ tok ∈ (toks.drop (B * F * 3 + C * 6)).take B, ¬ (IStream.intToken tok).isSome := by
      by_contra hall
      exact hrange ⟨hdouble, fun tok htok => by_contra fun hbad => hall ⟨tok, htok, hbad⟩⟩
    obtain ⟨front, bad, rest, hparents, hfront, hbad⟩ := exists_first hint
    have hlong : B * F * 3 + C * 6 ≤ toks.length := by
      by_contra hshort
      rw [List.drop_eq_nil_of_le (by omega)] at hparents
      simp at hparents
    have hlength : (toks.take (B * F * 3 + C * 6)).length = B * F * 3 + C * 6 := by
      rw [List.length_take]
      omega
    have hcount : front.length < B := by
      have := congrArg List.length hparents
      simp only [List.length_take, List.length_append, List.length_cons] at this
      omega
    refine ⟨toks.take (B * F * 3 + C * 6) ++ front,
      bad :: rest ++ (toks.drop (B * F * 3 + C * 6)).drop B, ?_, by simp, ?_, ⟨?_, ?_⟩, ?_⟩
    · rw [List.append_assoc, ← List.append_assoc front, ← hparents, List.take_append_drop,
        List.take_append_drop]
    · rw [List.length_append, hlength]
      omega
    · rw [List.take_left' hlength]
      exact hdouble
    · rw [List.drop_left' hlength]
      exact fun tok htok => hfront tok (List.mem_of_mem_take htok)
    · rintro tok htok
      obtain rfl : bad = tok := by simpa using htok
      rw [RefusedAt, if_neg (by rw [List.length_append, hlength]; omega)]
      refine ⟨h.int bad (by rw [hparents]; simp), by simpa using hbad⟩
  · have hdouble' : ∃ tok ∈ toks.take (B * F * 3 + C * 6), ¬ (IStream.doubleToken K tok).isSome := by
      by_contra hall
      exact hdouble fun tok htok => by_contra fun hbad => hall ⟨tok, htok, hbad⟩
    obtain ⟨front, bad, rest, hdoubles, hfront, hbad⟩ := exists_first hdouble'
    have hcount : front.length < B * F * 3 + C * 6 := by
      have := congrArg List.length hdoubles
      simp only [List.length_take, List.length_append, List.length_cons] at this
      omega
    refine ⟨front, bad :: rest ++ toks.drop (B * F * 3 + C * 6), ?_, by simp, by omega, ⟨?_, ?_⟩, ?_⟩
    · rw [← List.append_assoc, ← hdoubles, List.take_append_drop]
    · exact fun tok htok => hfront tok (List.mem_of_mem_take htok)
    · rw [List.drop_eq_nil_of_le hcount.le]
      simp
    · rintro tok htok
      obtain rfl : bad = tok := by simpa using htok
      rw [RefusedAt, if_pos hcount]
      exact ⟨h.double bad (by rw [hdoubles]; simp), by simpa using hbad⟩

/-- What accepting exactly the format means for a result: the file is accepted
    if and only if all numbers are there, then they are what was read, and
    otherwise the program ends with an error. -/
structure AcceptsFormat (result : Except Exit (Input K)) (B F C : Nat) (toks : List Text) :
    Prop where
  returns_iff : (∃ input, result = .ok input) ↔ B * F * 3 + C * 6 + B ≤ toks.length
  spells : ∀ input, result = .ok input →
    input.Spells B F C toks ∧ input.numBones.toInt = B ∧ input.frames.toInt = F
  exits : toks.length < B * F * 3 + C * 6 + B → ∃ e, result = .error (.writeErrorAndExit e)

/-- An error is the right answer to a file that is too short. -/
theorem acceptsFormat_error_iff {result : Except Exit (Input K)}
    (h : ∃ e, result = .error (.writeErrorAndExit e)) :
    AcceptsFormat result B F C toks ↔ toks.length < B * F * 3 + C * 6 + B := by
  obtain ⟨e, rfl⟩ := h
  constructor
  · intro haccepts
    by_contra hall
    obtain ⟨input, hinput⟩ := haccepts.returns_iff.mpr (by omega)
    cases hinput
  · intro hshort
    refine ⟨⟨?_, fun hall => by omega⟩, ?_, fun _ => ⟨e, rfl⟩⟩
    · rintro ⟨input, hinput⟩
      cases hinput
    · intro input hinput
      cases hinput

/-- Only numbers in range are spelled. -/
theorem Input.Spells.inRange {input : Input K} (h : input.Spells B F C toks) :
    InRange K B F C toks := by
  have hsome : ∀ {α : Type} {parse : Text → Option α} {values : List α} {toks : List Text},
      values.map some = toks.map parse → ∀ tok ∈ toks, (parse tok).isSome := by
    intro α parse values toks hvalues tok htok
    obtain ⟨value, -, hvalue⟩ := List.mem_map.mp (hvalues ▸ List.mem_map_of_mem htok)
    rw [← hvalue]
    rfl
  constructor
  · intro tok htok
    rw [List.take_add] at htok
    rcases List.mem_append.mp htok with hmem | hmem
    · exact hsome h.positions tok hmem
    · exact hsome h.colliders tok hmem
  · exact hsome h.parents

/-- From a header of `int`s on. -/
theorem readSections_acceptsFormat_iff (memory : Uninitialised K) (hB : numBones.toInt = B)
    (hF : frames.toInt = F) (hC : numColliders.toInt = C) (hfit : 3 * B * F < 2 ^ 31)
    (hvalid : Numerals B F C toks) (hs : s.At toks) :
    AcceptsFormat (readSections s memory numBones frames numColliders) B F C toks ↔
      InRange K B F C toks ∧ toks.length + 1 ≠ B * F * 3 + C * 6 + B ∨
        ¬ InRange K B F C toks ∧ toks.length < B * F * 3 + C * 6 + B := by
  by_cases hrange : InRange K B F C toks
  · have hcut : s.Cut (RefusedAt K B F C toks.length) toks := ⟨[], by simpa using hs, by simp⟩
    simp only [hrange, true_and, not_true_eq_false, false_and, or_false]
    rcases Nat.lt_trichotomy (toks.length + 1) (B * F * 3 + C * 6 + B) with hlt | heq | hgt
    · rw [acceptsFormat_error_iff (readSections_short memory hB hF hC hfit hlt hrange hcut)]
      omega
    · refine iff_of_false (fun h => ?_) (by simp [heq])
      have hall := h.returns_iff.mp (readSections_last memory hB hF hC hfit heq hrange hcut)
      omega
    · obtain ⟨input, hinput, hspells, hnumBones, hframes, -⟩ :=
        readSections_full memory hB hF hC hfit (by omega) hrange hs
      rw [hinput]
      refine iff_of_true ⟨⟨fun _ => by omega, fun _ => ⟨input, rfl⟩⟩, ?_, fun hlt => by omega⟩
        (by omega)
      intro input' h
      cases h
      exact ⟨hspells, by rw [hnumBones, hB], by rw [hframes, hF]⟩
  · obtain ⟨front, rest, rfl, hrest, hlen, hfront, hrefused⟩ := hvalid.cut hrange
    have hcut : s.Cut (RefusedAt K B F C front.length) front := ⟨rest, hs, hrefused⟩
    have hpos : 0 < rest.length := List.length_pos_iff.mpr hrest
    simp only [hrange, false_and, not_false_eq_true, true_and, false_or]
    rcases Nat.lt_or_ge (front.length + 1) (B * F * 3 + C * 6 + B) with hlt | hge
    · exact acceptsFormat_error_iff (readSections_short memory hB hF hC hfit hlt hfront hcut)
    · -- the last number is refused: the result does not spell it
      obtain ⟨input, hinput⟩ := readSections_last memory hB hF hC hfit (by omega) hfront hcut
      refine iff_of_false (fun h => hrange (h.spells input hinput).1.inRange) ?_
      rw [List.length_append]
      omega

/-- The counts and all numerals that are read are in the range of their types. -/
structure Fits (K : Type) [Field K] (B F C : Nat) (toks : List Text) : Prop extends
    InRange K B F C toks where
  counts : B < 2 ^ 31 ∧ F < 2 ^ 31 ∧ C < 2 ^ 31

/-- The format is accepted exactly, but for the files that lack exactly one
    number, and those that are long enough but hold a number that does not fit. -/
theorem readFile_acceptsFormat_iff {text bTok fTok cTok : Text} (memory : Uninitialised K)
    (frames₀ : Int32) (htext : IStream.Tokens (bTok :: fTok :: cTok :: toks) text)
    (hb : intNumeral bTok = some (B : Int)) (hf : intNumeral fTok = some (F : Int))
    (hc : intNumeral cTok = some (C : Int)) (hfit : 3 * B * F < 2 ^ 31)
    (hvalid : Numerals B F C toks) :
    AcceptsFormat (readFile (some text) memory frames₀) B F C toks ↔
      Fits K B F C toks ∧ toks.length + 1 ≠ B * F * 3 + C * 6 + B ∨
        ¬ Fits K B F C toks ∧ toks.length < B * F * 3 + C * 6 + B := by
  by_cases hcounts : B < 2 ^ 31 ∧ F < 2 ^ 31 ∧ C < 2 ^ 31
  · have hfits : Fits K B F C toks ↔ InRange K B F C toks :=
      ⟨fun h => h.toInRange, fun h => ⟨h, hcounts⟩⟩
    obtain ⟨numBones, hbTok, hB⟩ := IStream.intToken_of_lt hb hcounts.1
    obtain ⟨frames, hfTok, hF⟩ := IStream.intToken_of_lt hf hcounts.2.1
    obtain ⟨numColliders, hcTok, hC⟩ := IStream.intToken_of_lt hc hcounts.2.2
    obtain ⟨s, hs, hread⟩ := readFile_header memory frames₀ htext hbTok hfTok hcTok
    rw [hread, hfits]
    exact readSections_acceptsFormat_iff memory hB hF hC hfit hvalid hs
  · have hfits : ¬ Fits K B F C toks := fun h => hcounts h.counts
    simp only [hfits, false_and, not_false_eq_true, true_and, false_or]
    exact acceptsFormat_error_iff
      (readFile_header_overflow memory frames₀ htext hb hf hc hfit hcounts)

end File

/-! ## Small files -/

/-- A file that lacks the parent of its only bone is accepted, with parent `0`. -/
theorem readFile_missing_parent :
    IStream.Tokens (["1", "1", "0", "1", "2", "3"].map String.toList) "1 1 0 1 2 3 ".toList ∧
      Numerals 1 1 0 (["1", "2", "3"].map String.toList) ∧
      (readFile (some "1 1 0 1 2 3 ".toList) Uninitialised.zeros 0).map Input.parents = .ok [0] ∧
      ¬ AcceptsFormat (readFile (some "1 1 0 1 2 3 ".toList) Uninitialised.zeros 0) 1 1 0
        (["1", "2", "3"].map String.toList) := by
  have htokens := IStream.Tokens.of_terminated (["1", "1", "0", "1", "2", "3"].map String.toList)
  have hread : (readFile (some "1 1 0 1 2 3 ".toList) Uninitialised.zeros 0).map Input.parents =
      .ok [0] := by decide +kernel
  refine ⟨htokens, ⟨by decide, by decide⟩, hread, fun h => ?_⟩
  have hok : ∃ input, readFile (some "1 1 0 1 2 3 ".toList) Uninitialised.zeros 0 = .ok input := by
    cases hresult : readFile (some "1 1 0 1 2 3 ".toList) Uninitialised.zeros 0 with
    | ok input => exact ⟨input, rfl⟩
    | error e =>
      rw [hresult] at hread
      cases hread
  have hall := h.returns_iff.mp hok
  simp at hall

/-- Of two files with all their numbers the one is accepted, and the other, with a
    coordinate that is no `double`, is not. -/
theorem readFile_acceptsFormat_iff_whole :
    AcceptsFormat
        (readFile
          (some (IStream.terminated (["1", "1", "0", "1", "2", "3", "0"].map String.toList)))
          Uninitialised.zeros 0)
        1 1 0 (["1", "2", "3", "0"].map String.toList) ∧
      ¬ AcceptsFormat
        (readFile
          (some (IStream.terminated (["1", "1", "0", "1e400", "2", "3", "0"].map String.toList)))
          Uninitialised.zeros 0)
        1 1 0 (["1e400", "2", "3", "0"].map String.toList) := by
  have hone : intNumeral "1".toList = some 1 := by decide
  have hzero : intNumeral "0".toList = some 0 := by decide
  constructor
  · refine (readFile_acceptsFormat_iff Uninitialised.zeros 0 (IStream.Tokens.of_terminated _) hone
      hone hzero (by decide) ⟨by decide, by decide⟩).mpr (.inl ⟨⟨⟨?_, ?_⟩, by decide⟩, by decide⟩)
    · decide +kernel
    · decide +kernel
  · intro haccepts
    obtain ⟨hfits, -⟩ | ⟨-, hshort⟩ := (readFile_acceptsFormat_iff Uninitialised.zeros 0
      (IStream.Tokens.of_terminated _) hone hone hzero (by decide) ⟨by decide, by decide⟩).mp
        haccepts
    · exact absurd (hfits.double "1e400".toList (by simp)) (by decide +kernel)
    · exact absurd hshort (by decide)
