-- SUMMARY: The solver program: read the input, build the problem, solve it, save the array.
import SmoothMotion.Solver.Builders
import SmoothMotion.Solver.ReadFile

open Decimal

namespace CeresWrapper

/-- How `main` ends before it has saved the result. -/
inductive Stop where
  | exit (exit : Exit)
  | fault (fault : Fault)
  | saveFailed (message : String)
deriving DecidableEq, Repr

variable {K : Type} [Scalar K]

/-- The text `SaveFile` writes; `showDouble` is how the stream prints a `double`. -/
def saveText (showDouble : K → Text) (parameters : List K) (frames : Int32) : Text :=
  showInt frames.toInt ++ parameters.flatMap fun parameter => ' ' :: showDouble parameter

/-- `SaveFile`, if the file can be opened. -/
def saveFile (showDouble : K → Text) (filename : String) (opens : Bool) (parameters : List K)
    (frames : Int32) : Except Stop Text :=
  if opens then .ok (saveText showDouble parameters frames)
  else .error (.saveFailed ("Failed to open file for saving " ++ filename ++ ".SMOutput"))

/-- `main` on the content of the input file. `solve` is Ceres: it gets the
    problem and the array, and leaves the array it ends with. -/
def main (platform : Platform) (solve : Problem (CostFunctor K) → List K → Except Fault (List K))
    (showDouble : K → Text) (memory : Uninitialised K) (filename : String) (file : Option Text)
    (opens : Bool) : Except Stop Text := do
  let input ← (readFile file memory 0).mapError .exit
  let problem ← (maintainBoneLengthChildrenFunction platform input.colliders input.frames
    input.numBones input.positions input.parents).mapError .fault
  let parameters ← (solve problem input.positions).mapError .fault
  saveFile showDouble filename opens parameters input.frames

end CeresWrapper
