-- SUMMARY: What ReadFile leaves when it returns, for any stream, and when its consumers can rely on it.
import Mathlib.Logic.Function.Iterate
import SmoothMotion.Solver.Functors
import SmoothMotion.Solver.ReadFile

open Decimal

/-!
# Well-formed input

`ReadFile` counts what it reads and looks at none of it: the product of the
header's counts is an `int` and may wrap, and the parents may be any `int`s. So
how far the input is well formed is to be told from the numbers in the stream.
-/

/-! ## The numbers in a stream -/

namespace IStream

/-- The stream behind a number. -/
def skipDouble (K : Type) [Field K] (s : IStream) : IStream := (s.extractDouble (0 : K)).1

/-- The next `n` integers; where none is left, or what is left is none, zero. -/
def ints : (n : Nat) → IStream → List Int32
  | 0, _ => []
  | n + 1, s => (s.extractInt 0).2 :: ints n (s.extractInt 0).1

/-- What the variable held before is lost, or the stream has failed. -/
theorem extractInt_eq {s : IStream} {value : Int32} (h : (s.extractInt value).1.ok = true) :
    s.extractInt value = s.extractInt 0 := by
  unfold extractInt at h ⊢
  cases hextract : s.extract scanInt with
  | mk s' result =>
    cases result with
    | some result => cases result <;> rfl
    | none =>
      have hfailed : s'.ok = false := by
        cases hok : s.sentry.ok with
        | true => simp [extract, hok] at hextract
        | false =>
          simp only [extract, hok, Bool.false_eq_true, if_false, Prod.mk.injEq, and_true] at hextract
          rw [← hextract, hok]
      rw [hextract] at h
      simp [hfailed] at h

theorem extractInt_fst (s : IStream) (value : Int32) :
    (s.extractInt value).1 = (s.extractInt 0).1 := by
  unfold extractInt
  cases s.extract scanInt with
  | mk s' result =>
    cases result with
    | none => rfl
    | some result => cases result <;> rfl

theorem extractDouble_fst {K : Type} [Field K] (s : IStream) (value : K) :
    (s.extractDouble value).1 = s.skipDouble K := by
  unfold skipDouble extractDouble
  cases s.extract (scanDecimal false) with
  | mk s' result =>
    cases result with
    | none => rfl
    | some result => cases result <;> rfl

end IStream

/-- The counts in front of a file. -/
structure Header where
  numBones : Int32
  frames : Int32
  numColliders : Int32

/-- The counts, and the stream behind them. -/
def header (text : Text) : Header × IStream :=
  let (s, numBones) := (IStream.ofText text).extractInt 0
  let (s, frames) := s.extractInt 0
  let (s, numColliders) := s.extractInt 0
  (⟨numBones, frames, numColliders⟩, s)

/-- `numBones * frames * 3`, as the `int` it is computed in. -/
def Header.numParameters (h : Header) : Int32 := h.numBones * h.frames * 3

/-- The parents in a file: the integers behind the positions and the colliders. -/
def listedParents (K : Type) [Field K] (text : Text) : List Int32 :=
  let (h, s) := header text
  IStream.ints h.numBones.toInt.toNat
    ((IStream.skipDouble K)^[h.numParameters.toInt.toNat + h.numColliders.toInt.toNat * 6] s)

/-! ## What a filled vector holds -/

section Fill

variable {α : Type} {read : IStream → α → Except Exit (IStream × α)} {s s' : IStream}
  {as as' : List α} {i : Nat}

theorem length_fill (h : fill read s as = .ok (s', as', i)) :
    as'.length = as.length ∧ i ≤ as.length := by
  induction as generalizing s as' i with
  | nil =>
    cases h
    exact ⟨rfl, Nat.le_refl _⟩
  | cons a as ih =>
    rw [fill] at h
    split at h
    · obtain ⟨⟨s₁, a'⟩, -, h⟩ := Except.bind_eq_ok h
      obtain ⟨⟨s₂, as₂, j⟩, hrest, h⟩ := Except.bind_eq_ok h
      cases h
      obtain ⟨hlength, hcount⟩ := ih hrest
      simp [hlength, hcount]
    · cases h
      simp

/-- A count beyond zero begins with the first element. -/
theorem fill_cons {a : α} (h : fill read s (a :: as) = .ok (s', as', i + 1)) :
    ∃ s₁ a' as₁, read s a = .ok (s₁, a') ∧ fill read s₁ as = .ok (s', as₁, i) ∧
      as' = a' :: as₁ := by
  rw [fill] at h
  split at h
  · obtain ⟨⟨s₁, a'⟩, hread, h⟩ := Except.bind_eq_ok h
    obtain ⟨⟨s₂, as₂, j⟩, hrest, h⟩ := Except.bind_eq_ok h
    simp only [pure, Except.pure, Except.ok.injEq, Prod.mk.injEq, Nat.add_right_cancel_iff] at h
    obtain ⟨rfl, rfl, rfl⟩ := h
    exact ⟨s₁, a', as₂, hread, hrest, rfl⟩
  · simp at h

/-- A reader that always moves on by `next` moves on by `next` for every element. -/
theorem fill_iterate {next : IStream → IStream}
    (hread : ∀ s a s' a', read s a = .ok (s', a') → s' = next s)
    (h : fill read s as = .ok (s', as', as.length)) : s' = next^[as.length] s := by
  induction as generalizing s as' with
  | nil =>
    cases h
    rfl
  | cons a as ih =>
    obtain ⟨s₁, a', as₁, hfirst, hrest, -⟩ := fill_cons h
    rw [ih hrest, hread _ _ _ _ hfirst]
    rfl

theorem readInt_eq {value value' : Int32} (h : readInt s value = .ok (s', value')) :
    s.ok = true ∧ s.extractInt value = (s', value') := by
  unfold readInt at h
  split at h
  · next hok => exact ⟨hok, Except.ok.inj h⟩
  · cases h

/-- Integers read over zeros are those in the stream. -/
theorem fill_readInt {n : Nat} {values : List Int32}
    (h : fill readInt s (List.replicate n 0) = .ok (s', values, n)) : values = s.ints n := by
  induction n generalizing s values with
  | zero =>
    cases h
    rfl
  | succ n ih =>
    rw [List.replicate_succ] at h
    obtain ⟨s₁, value, values₁, hfirst, hrest, rfl⟩ := fill_cons h
    obtain ⟨-, hread⟩ := readInt_eq hfirst
    rw [ih hrest, IStream.ints, hread]

theorem readVector_eq_ok {n : Int32} {a : α} {error : String} {v : List α}
    (h : readVector read s n a error = .ok (s', v)) :
    ∃ m : Nat, n.toInt = m ∧ fill read s (List.replicate m a) = .ok (s', v, m) ∧ v.length = m := by
  obtain ⟨v₀, hnew, h⟩ := Except.bind_eq_ok h
  obtain ⟨⟨s₁, v₁, i⟩, hfill, h⟩ := Except.bind_eq_ok h
  obtain ⟨_, hcheck, h⟩ := Except.bind_eq_ok h
  cases h
  have hcount : (i : Int) = n.toInt := by
    by_contra hne
    simp [checkCount, hne] at hcheck
  unfold newVector at hnew
  split at hnew
  · cases hnew
  · cases hnew
    rw [← hcount, Int.toNat_natCast] at hfill
    exact ⟨i, hcount.symm, hfill, by simpa using (length_fill hfill).1⟩

end Fill

/-! ## What `ReadFile` leaves -/

section Returns

variable {K : Type} [Scalar K] {s s' : IStream}

theorem readDouble_fst {value value' : K} (h : readDouble s value = .ok (s', value')) :
    s' = s.skipDouble K := by
  unfold readDouble at h
  split at h
  · rw [← IStream.extractDouble_fst s value, Except.ok.inj h]
  · cases h

theorem readVector3_fst {value value' : Vector3d K} (h : readVector3 s value = .ok (s', value')) :
    s' = (IStream.skipDouble K)^[3] s := by
  obtain ⟨⟨s₁, x⟩, hx, h⟩ := Except.bind_eq_ok h
  obtain ⟨⟨s₂, y⟩, hy, h⟩ := Except.bind_eq_ok h
  obtain ⟨⟨s₃, z⟩, hz, h⟩ := Except.bind_eq_ok h
  cases h
  rw [readDouble_fst hz, readDouble_fst hy, readDouble_fst hx]
  rfl

theorem readCollider_fst {value value' : Collider K} (h : readCollider s value = .ok (s', value')) :
    s' = (IStream.skipDouble K)^[6] s := by
  obtain ⟨⟨s₁, position⟩, hposition, h⟩ := Except.bind_eq_ok h
  obtain ⟨⟨s₂, normal⟩, hnormal, h⟩ := Except.bind_eq_ok h
  cases h
  rw [readVector3_fst hnormal, readVector3_fst hposition]
  rfl

/-- What the sections hold once all of them have passed their check. -/
theorem readSections_returns {memory : Uninitialised K} {numBones frames numColliders : Int32}
    {input : Input K} (h : readSections s memory numBones frames numColliders = .ok input) :
    input.numBones = numBones ∧ input.frames = frames ∧
      (input.positions.length : Int) = (numBones * frames * 3).toInt ∧
      (input.colliders.length : Int) = numColliders.toInt ∧
      (input.parents.length : Int) = numBones.toInt ∧
      input.parents = IStream.ints numBones.toInt.toNat ((IStream.skipDouble K)^[
        (numBones * frames * 3).toInt.toNat + numColliders.toInt.toNat * 6] s) := by
  obtain ⟨⟨s₁, positions⟩, hpositions, h⟩ := Except.bind_eq_ok h
  obtain ⟨⟨s₂, colliders⟩, hcolliders, h⟩ := Except.bind_eq_ok h
  obtain ⟨⟨s₃, parents⟩, hparents, h⟩ := Except.bind_eq_ok h
  cases h
  obtain ⟨n, hn, hfill₁, hlength₁⟩ := readVector_eq_ok hpositions
  obtain ⟨C, hC, hfill₂, hlength₂⟩ := readVector_eq_ok hcolliders
  obtain ⟨B, hB, hfill₃, hlength₃⟩ := readVector_eq_ok hparents
  have hs₁ : s₁ = (IStream.skipDouble K)^[n] s := by
    have hfill : fill readDouble s (List.replicate n (0 : K)) =
        .ok (s₁, positions, (List.replicate n (0 : K)).length) := by rwa [List.length_replicate]
    have hrun := fill_iterate (fun _ _ _ _ h => readDouble_fst h) hfill
    rwa [List.length_replicate] at hrun
  have hs₂ : s₂ = ((IStream.skipDouble K)^[6])^[C] s₁ := by
    have hfill : fill readCollider s₁ (List.replicate C memory.collider) =
        .ok (s₂, colliders, (List.replicate C memory.collider).length) := by
      rwa [List.length_replicate]
    have hrun := fill_iterate (fun _ _ _ _ h => readCollider_fst h) hfill
    rwa [List.length_replicate] at hrun
  refine ⟨rfl, rfl, by rw [hn, hlength₁], by rw [hC, hlength₂], by rw [hB, hlength₃], ?_⟩
  have hskip : n + C * 6 = 6 * C + n := by omega
  rw [hn, hC, hB, Int.toNat_natCast, Int.toNat_natCast, Int.toNat_natCast, fill_readInt hfill₃,
    hs₂, hs₁, ← Function.iterate_mul, ← Function.iterate_add_apply, hskip]

/-- On a failed stream only empty sections pass their check. -/
theorem readSections_stopped {memory : Uninitialised K} {numBones frames numColliders : Int32}
    {input : Input K} (hs : s.ok = false)
    (h : readSections s memory numBones frames numColliders = .ok input) : numBones.toInt = 0 := by
  obtain ⟨⟨s₁, positions⟩, hpositions, h⟩ := Except.bind_eq_ok h
  obtain ⟨⟨s₂, colliders⟩, hcolliders, h⟩ := Except.bind_eq_ok h
  obtain ⟨⟨s₃, parents⟩, hparents, h⟩ := Except.bind_eq_ok h
  obtain ⟨n, -, hfill₁, -⟩ := readVector_eq_ok hpositions
  obtain ⟨C, -, hfill₂, -⟩ := readVector_eq_ok hcolliders
  obtain ⟨B, hB, hfill₃, -⟩ := readVector_eq_ok hparents
  rw [fill_stopped readDouble hs] at hfill₁
  cases hfill₁
  rw [fill_stopped readCollider hs] at hfill₂
  cases hfill₂
  rw [fill_stopped readInt hs] at hfill₃
  cases hfill₃
  exact hB

/-- For every stream on which `ReadFile` returns: the counts and the parents are
    those in the stream, and the sizes are what their `int`s say. -/
theorem readFile_returns {text : Text} {memory : Uninitialised K} {frames₀ : Int32}
    {input : Input K} (h : readFile (some text) memory frames₀ = .ok input) :
    input.numBones = (header text).1.numBones ∧ input.frames = (header text).1.frames ∧
      (input.positions.length : Int) = (header text).1.numParameters.toInt ∧
      (input.parents.length : Int) = (header text).1.numBones.toInt ∧
      input.parents = listedParents K text ∧
      (input.numBones.toInt = 0 ∨
        (input.colliders.length : Int) = (header text).1.numColliders.toInt) := by
  obtain ⟨_, htext, h⟩ := Except.bind_eq_ok h
  cases htext
  obtain ⟨⟨s₁, numBones⟩, hnumBones, h⟩ := Except.bind_eq_ok h
  obtain ⟨⟨s₂, frames⟩, hframes, h⟩ := Except.bind_eq_ok h
  obtain ⟨⟨s₃, numColliders⟩, hnumColliders, h⟩ := Except.bind_eq_ok h
  obtain ⟨-, hextract₁⟩ := readInt_eq hnumBones
  obtain ⟨-, hextract₂⟩ := readInt_eq hframes
  obtain ⟨hok₂, hextract₃⟩ := readInt_eq hnumColliders
  -- the count of the colliders is read from a stream that has not failed, so the frames were there
  have hextract₂' : s₁.extractInt frames₀ = s₁.extractInt 0 :=
    IStream.extractInt_eq (by rwa [hextract₂])
  have hbehind : s₃ = (s₂.extractInt 0).1 := by
    rw [← IStream.extractInt_fst s₂ memory.numColliders, hextract₃]
  have hheader : header text = (⟨numBones, frames, (s₂.extractInt 0).2⟩, s₃) := by
    simp only [header, hextract₁, ← hextract₂', hextract₂, hbehind]
  obtain ⟨hB, hF, hpositions, hcolliders, hlength, hparents⟩ := readSections_returns h
  simp only [hheader, Header.numParameters, hB, hF, hpositions, hlength, true_and]
  cases hok₃ : s₃.ok with
  | false =>
    have hzero := readSections_stopped hok₃ h
    refine ⟨?_, .inl hzero⟩
    rw [hparents, listedParents, hheader]
    simp [hzero, IStream.ints]
  | true =>
    have hextract₃' : s₂.extractInt memory.numColliders = s₂.extractInt 0 :=
      IStream.extractInt_eq (by rwa [hextract₃])
    have hcount : (s₂.extractInt 0).2 = numColliders := by rw [← hextract₃', hextract₃]
    refine ⟨?_, .inr (by rw [hcolliders, hcount])⟩
    rw [hparents, listedParents, hheader, hcount]
    rfl

end Returns

/-! ## When the consumers can rely on it -/

section Consumers

variable {K : Type}

/-- The sizes are the exact products of the counts, and every parent is a bone. -/
structure WellFormed (input : Input K) : Prop where
  positions : (input.positions.length : Int) = 3 * input.numBones.toInt * input.frames.toInt
  parents : (input.parents.length : Int) = input.numBones.toInt
  parent_bone : ∀ parent ∈ input.parents, 0 ≤ parent.toInt ∧ parent.toInt < input.numBones.toInt

/-- The indices the builders form for parents and for children are in the array. -/
structure IndicesInArray (input : Input K) : Prop where
  parent : ∀ parent ∈ input.parents, ∀ frame : Nat, frame < input.frames.toInt →
    InArray input.positions.length ((parent.toInt * input.frames.toInt + frame) * 3)
  child : ∀ child frame : Nat, child < input.numBones.toInt → frame < input.frames.toInt →
    InArray input.positions.length ((child * input.frames.toInt + frame) * 3)

/-- An index of a bone and a frame is within the exact product. -/
theorem WellFormed.inArray {input : Input K} (h : WellFormed input) {bone : Int} {frame : Nat}
    (hbone : 0 ≤ bone) (hlt : bone < input.numBones.toInt) (hframe : frame < input.frames.toInt) :
    InArray input.positions.length ((bone * input.frames.toInt + frame) * 3) := by
  have hrow : 0 ≤ bone * input.frames.toInt := mul_nonneg hbone (by omega)
  have hnext : (bone + 1) * input.frames.toInt ≤ input.numBones.toInt * input.frames.toInt :=
    mul_le_mul_of_nonneg_right (by omega) (by omega)
  have hsucc : (bone + 1) * input.frames.toInt = bone * input.frames.toInt + input.frames.toInt := by
    ring
  have hall : 3 * input.numBones.toInt * input.frames.toInt =
      3 * (input.numBones.toInt * input.frames.toInt) := by ring
  have hpositions := h.positions
  constructor <;> omega

theorem WellFormed.indicesInArray {input : Input K} (h : WellFormed input) :
    IndicesInArray input where
  parent parent hparent _ hframe :=
    h.inArray (h.parent_bone parent hparent).1 (h.parent_bone parent hparent).2 hframe
  child child _ hchild hframe := h.inArray (Int.natCast_nonneg child) hchild hframe

/-- The product of the counts, computed exactly, is an `int` that is no size below
    zero. -/
def Header.Fits (h : Header) : Prop :=
  0 ≤ 3 * h.numBones.toInt * h.frames.toInt ∧ 3 * h.numBones.toInt * h.frames.toInt < 2 ^ 31

theorem Header.numParameters_toInt (h : Header) :
    h.numParameters.toInt = (3 * h.numBones.toInt * h.frames.toInt).bmod (2 ^ 32) := by
  have hthree : (3 : Int32).toInt = 3 := rfl
  have hproduct : h.numBones.toInt * h.frames.toInt * 3 =
      3 * h.numBones.toInt * h.frames.toInt := by ring
  unfold Header.numParameters
  rw [Int32.toInt_mul, Int32.toInt_mul, hthree, Int.bmod_mul_bmod, hproduct]

variable [Scalar K]

/-- What `ReadFile` accepts is well formed, and then every index of its consumers
    is in the array, if and only if the header's product does not wrap and the
    parents in the file are bones. -/
theorem readFile_wellFormed_iff {text : Text} {memory : Uninitialised K} {frames₀ : Int32}
    {input : Input K} (h : readFile (some text) memory frames₀ = .ok input) :
    (WellFormed input ∧ IndicesInArray input) ↔ (header text).1.Fits ∧
      ∀ parent ∈ listedParents K text,
        0 ≤ parent.toInt ∧ parent.toInt < (header text).1.numBones.toInt := by
  obtain ⟨hB, hF, hpositions, hlength, hparents, -⟩ := readFile_returns h
  rw [Header.numParameters_toInt] at hpositions
  constructor
  · rintro ⟨hwell, -⟩
    refine ⟨?_, ?_⟩
    · have hexact := hwell.positions
      have hrange := Int.bmod_lt (x := 3 * (header text).1.numBones.toInt *
        (header text).1.frames.toInt) (m := 2 ^ 32) (by decide)
      rw [hB, hF] at hexact
      unfold Header.Fits
      omega
    · intro parent hparent
      rw [← hB]
      exact hwell.parent_bone parent (hparents ▸ hparent)
  · rintro ⟨hfits, hbones⟩
    have hwell : WellFormed input := by
      refine ⟨?_, by rw [hlength, hB], ?_⟩
      · rw [hpositions, hB, hF]
        obtain ⟨hpos, hlt⟩ := hfits
        exact Int.bmod_eq_of_le (by omega) (by omega)
      · intro parent hparent
        rw [hB]
        exact hbones parent (hparents ▸ hparent)
    exact ⟨hwell, hwell.indicesInArray⟩

end Consumers

/-- Two files that are accepted: one lists bone `5` as a parent of the only bone,
    the product of the other's header is `2 ^ 32 + 2`, for which it has two numbers. -/
theorem readFile_not_wellFormed :
    (∃ input, readFile (some "1 1 0 1 2 3 5 ".toList) Uninitialised.zeros 0 = .ok input ∧
      input.parents = [5] ∧ ¬ WellFormed input) ∧
    ∃ input, readFile (some "1 1431655766 0 1 2 0 ".toList) Uninitialised.zeros 0 = .ok input ∧
      input.positions = [1, 2] ∧ ¬ WellFormed input := by
  constructor
  · refine ⟨⟨[], [1, 2, 3], 1, 1, [5]⟩, by decide +kernel, rfl, fun h => ?_⟩
    exact absurd (h.parent_bone 5 (by simp)).2 (by decide)
  · refine ⟨⟨[], [1, 2], 1431655766, 1, [0]⟩, by decide +kernel, rfl, fun h => ?_⟩
    exact absurd h.positions (by decide)

/-- A file with a parent that is a bone. -/
theorem readFile_wellFormed_iff_oneBone :
    (WellFormed (⟨[], [1, 2, 3], 1, 1, [0]⟩ : Input ℚ) ∧
      IndicesInArray (⟨[], [1, 2, 3], 1, 1, [0]⟩ : Input ℚ)) ↔
      (header "1 1 0 1 2 3 0 ".toList).1.Fits ∧
        ∀ parent ∈ listedParents ℚ "1 1 0 1 2 3 0 ".toList,
          0 ≤ parent.toInt ∧ parent.toInt < (header "1 1 0 1 2 3 0 ".toList).1.numBones.toInt := by
  have hread : readFile (some "1 1 0 1 2 3 0 ".toList) Uninitialised.zeros 0 =
      .ok ⟨[], [1, 2, 3], 1, 1, [0]⟩ := by decide +kernel
  exact readFile_wellFormed_iff hread
