-- SUMMARY: Which coordinates survive the way through the solver if it leaves them alone: those that a default stream prints exactly.
import SmoothMotion.Lib.OStream
import SmoothMotion.Solver.Main
import SmoothMotion.Unity.Animator
import SmoothMotion.Pipeline.Output

open CSharp Decimal

/-!
# Precision

A coordinate is printed three times and read twice on its way. Both readers take
a numeral for what it says, so what the animator gets is what the solver's
stream prints, and that is the coordinate to six significant digits.
-/

namespace CeresWrapper

variable {K : Type} [Scalar K]

/-- A printed number is parsed to the rounded value. -/
theorem parse_showDouble (runtime : Runtime K) (tieUp : Int → Bool) (v : K) :
    runtime.parse (OStream.showDouble tieUp v) = .ok (OStream.rounded tieUp v) := by
  obtain ⟨q, hq, hrounded⟩ := OStream.numeral_showDouble tieUp v
  rw [runtime.parse_numeral _ q hq, hrounded]

theorem blank_not_mem_showDouble (tieUp : Int → Bool) (v : K) :
    ' ' ∉ OStream.showDouble tieUp v := by
  obtain ⟨q, hq, -⟩ := OStream.numeral_showDouble tieUp v
  exact blank_not_mem hq

/-- `ReadDouble` reads what the exporter has printed, and if the solver leaves the
    number alone, the animator parses it back from the text that `main` saves
    exactly if it has at most six significant digits. -/
theorem main_preserves_iff {runtime : Runtime K} {tieUp : Int → Bool} {platform : Platform}
    {solve : Problem (CostFunctor K) → List K → Except Fault (List K)} {memory : Uninitialised K}
    {filename : String} {file : Option Text} {opens : Bool} {input : Input K} {text tok : Text}
    {v : K} {i : Nat} (htok : IStream.doubleToken K tok = some v)
    (hinput : readFile file memory 0 = .ok input) (hposition : input.positions[i]? = some v)
    (hunchanged : ∀ problem parameters, solve problem input.positions = .ok parameters →
      parameters[i]? = input.positions[i]?)
    (hmain : main platform solve (OStream.showDouble tieUp) memory filename file opens = .ok text) :
    (∀ (stream : IStream) toks w, stream.At (tok :: toks) →
        ∃ stream', readDouble stream w = .ok (stream', v)) ∧
      ∃ value, (text.splitOn ' ')[i + 1]? = some value ∧
        (runtime.parse value = .ok v ↔ Rounding.HasDigits 10 6 v) := by
  constructor
  · intro stream toks w hstream
    obtain ⟨stream', hread, -⟩ := hstream.extractDouble_cons htok w
    refine ⟨stream', ?_⟩
    unfold readDouble
    rw [if_pos hstream.ok, hread]
  · unfold main at hmain
    obtain ⟨input', hread, hmain⟩ := Except.bind_eq_ok hmain
    obtain rfl : input = input' := Except.ok.inj (hinput.symm.trans (Except.mapError_eq_ok hread))
    obtain ⟨problem, -, hmain⟩ := Except.bind_eq_ok hmain
    obtain ⟨parameters, hsolve, hmain⟩ := Except.bind_eq_ok hmain
    have hvalue : parameters[i]? = some v :=
      (hunchanged problem parameters (Except.mapError_eq_ok hsolve)).trans hposition
    have htext : text = saveText (OStream.showDouble tieUp) parameters input.frames := by
      unfold saveFile at hmain
      split at hmain
      · exact (Except.ok.inj hmain).symm
      · cases hmain
    refine ⟨OStream.showDouble tieUp v, ?_, ?_⟩
    · rw [htext, splitOn_saveText _ fun w _ => blank_not_mem_showDouble tieUp w,
        List.getElem?_cons_succ, List.getElem?_map, hvalue, Option.map_some]
    · rw [parse_showDouble, Except.ok.injEq, OStream.rounded_eq_iff]

/-- A solver that leaves every number alone. -/
def unchanged (_ : Problem (CostFunctor ℚ)) (parameters : List ℚ) : Except Fault (List ℚ) :=
  .ok parameters

/-- Halves go to the even digit. -/
def toEven (n : Int) : Bool := n % 2 = 1

/-- `1.5` for the one bone and its one frame. -/
theorem main_preserves_iff_oneBone :
    (∀ (stream : IStream) toks w, stream.At ("1.5".toList :: toks) →
        ∃ stream', readDouble stream w = .ok (stream', (3 / 2 : ℚ))) ∧
      ∃ value, ("1 1.5 0 0".toList.splitOn ' ')[0 + 1]? = some value ∧
        (Runtime.whole.parse value = .ok (3 / 2 : ℚ) ↔ Rounding.HasDigits 10 6 (3 / 2 : ℚ)) :=
  main_preserves_iff (by decide +kernel)
    (by decide +kernel : readFile (some "1 1 0 1.5 0 0 0 ".toList) Uninitialised.zeros 0 =
      .ok ⟨[], [3 / 2, 0, 0], 1, 1, [0]⟩)
    rfl (fun _ _ hsolve => by cases hsolve; rfl)
    (by decide +kernel : main win64 unchanged (OStream.showDouble toEven) Uninitialised.zeros "walk"
      (some "1 1 0 1.5 0 0 0 ".toList) true = .ok "1 1.5 0 0".toList)

/-- `1.234567`, as the exporter prints it, comes back as `1.23457`. -/
theorem main_loses_seventhDigit :
    Rounding.HasDigits 10 7 (1234567 / 10 ^ 6 : ℚ) ∧
      IStream.doubleToken ℚ "1.234567".toList = some (1234567 / 10 ^ 6) ∧
      (∃ input, readFile (some "1 1 0 1.234567 0 0 0 ".toList) Uninitialised.zeros 0 = .ok input ∧
        input.positions = [1234567 / 10 ^ 6, 0, 0]) ∧
      main win64 unchanged (OStream.showDouble toEven) Uninitialised.zeros "walk"
          (some "1 1 0 1.234567 0 0 0 ".toList) true = .ok "1 1.23457 0 0".toList ∧
      Runtime.whole.parse "1.23457".toList = .ok (123457 / 10 ^ 5) ∧
      (123457 / 10 ^ 5 : ℚ) ≠ 1234567 / 10 ^ 6 := by
  refine ⟨⟨1234567, -6, by decide, by norm_num⟩, by decide +kernel,
    ⟨⟨[], [1234567 / 10 ^ 6, 0, 0], 1, 1, [0]⟩, by decide +kernel, rfl⟩, by decide +kernel,
    by decide +kernel, by norm_num⟩

end CeresWrapper
