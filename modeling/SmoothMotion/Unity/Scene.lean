-- SUMMARY: The state the scripts of a scene share, and the runtime they print and parse numbers with.
import SmoothMotion.Unity.Controller

open CSharp Decimal

/-!
# Scenes

The exporter and the animator share one controller. Each acts once, when its own
flag is not set yet, and each may be called in any frame. An exception ends the
call it is thrown in, and leaves everything written before it.
-/

/-- How the runtime prints a `float` and parses a number: plain numerals it
    parses to their values, and what it refuses it refuses as no number or as too
    large a one. -/
structure Runtime (K : Type) [Scalar K] where
  showFloat : K → Text
  parse : Text → Except Exn K
  parse_numeral : ∀ text q, numeral text = some q → parse text = .ok (q : K)
  parse_throws : ∀ text e, parse text = .error e → e = .format ∨ e = .overflow

/-- `double.Parse` of finite numbers. -/
def Runtime.exact {K : Type} [Scalar K] (showFloat : K → Text) : Runtime K where
  showFloat
  parse := doubleParse K
  parse_numeral _ _ h := doubleParse_numeral h
  parse_throws text e h := by
    unfold doubleParse at h
    split at h
    · cases h
      exact .inl rfl
    · cases h

/-- The runtime on rational numbers, as far as these are whole. -/
def Runtime.whole : Runtime ℚ := Runtime.exact fun q => showInt q.num

/-- `frame` is the animator's `_frame`, `inputFile` the last `.SMInput` file that
    was written. -/
structure Scene (ι K : Type) [Scalar K] where
  controller : SmoothMotionController ι K
  pose : Pose ι K
  exporterInitialised : Bool
  inputFile : Option Text
  animatorInitialised : Bool
  frame : K
  log : List LogEntry

namespace Scene

variable {ι K : Type} [Scalar K]

/-- The scene once the controller has started. -/
def initial (c : SmoothMotionController ι K) (pose : Pose ι K) : Scene ι K where
  controller := c
  pose
  exporterInitialised := false
  inputFile := none
  animatorInitialised := false
  frame := 0
  log := []

def logged (s : Scene ι K) (entries : List LogEntry) : Scene ι K :=
  { s with log := s.log ++ entries }

@[simp] theorem logged_nil (s : Scene ι K) : s.logged [] = s := by
  simp [logged]

/-- The scene with the bones of its controller replaced. -/
def withBones (s : Scene ι K) (bones : List (SmoothMotionBone ι K)) : Scene ι K :=
  { s with controller := { s.controller with bones } }

@[simp] theorem withBones_bones (s : Scene ι K) (bones : List (SmoothMotionBone ι K)) :
    (s.withBones bones).controller.bones = bones := rfl

@[simp] theorem withBones_withBones (s : Scene ι K) (bones bones' : List (SmoothMotionBone ι K)) :
    (s.withBones bones).withBones bones' = s.withBones bones' := rfl

@[simp] theorem withBones_self (s : Scene ι K) : s.withBones s.controller.bones = s := rfl

end Scene
