-- SUMMARY: The exact numbers both programs compute with, and vectors of three of them.
import Mathlib.Algebra.Order.Floor.Ring
import Mathlib.Analysis.Real.Sqrt
import Mathlib.Data.Rat.Floor
import Mathlib.Data.Rat.Sqrt
import Mathlib.Tactic.Ring

/-!
# Exact numbers and vectors

The programs compute with `float` and `double`; here both are elements of one
ordered field, without rounding. A square root is only asked to be right on
squares, so that the rationals, on which everything can be evaluated, are an
instance next to the reals.
-/

class Scalar (K : Type) extends Field K, LinearOrder K, IsStrictOrderedRing K, FloorRing K where
  sqrt : K → K
  sqrt_mul_self : ∀ x : K, 0 ≤ x → sqrt (x * x) = x

namespace Scalar

noncomputable instance : Scalar ℝ where
  sqrt := Real.sqrt
  sqrt_mul_self _ h := Real.sqrt_mul_self h

instance : Scalar ℚ where
  sqrt := Rat.sqrt
  sqrt_mul_self x h := by rw [Rat.sqrt_eq, abs_of_nonneg h]

end Scalar

/-! ## Vectors -/

@[ext] structure Vector3d (K : Type) where
  x : K
  y : K
  z : K
deriving DecidableEq, Repr

namespace Vector3d

variable {K : Type}

/-- The components in the order they are stored. -/
def toList (v : Vector3d K) : List K := [v.x, v.y, v.z]

@[simp] theorem length_toList (v : Vector3d K) : v.toList.length = 3 := rfl

theorem toList_injective : Function.Injective (toList : Vector3d K → List K) := by
  intro a b h
  simp only [toList, List.cons.injEq] at h
  exact Vector3d.ext h.1 h.2.1 h.2.2.1

section Operations

variable [Scalar K]

instance : Add (Vector3d K) := ⟨fun a b => ⟨a.x + b.x, a.y + b.y, a.z + b.z⟩⟩
instance : Sub (Vector3d K) := ⟨fun a b => ⟨a.x - b.x, a.y - b.y, a.z - b.z⟩⟩

/-- Componentwise multiplication. -/
def scale (a b : Vector3d K) : Vector3d K := ⟨a.x * b.x, a.y * b.y, a.z * b.z⟩

/-- Componentwise inverse. -/
def unscale (a : Vector3d K) : Vector3d K := ⟨a.x⁻¹, a.y⁻¹, a.z⁻¹⟩

def smul (t : K) (a : Vector3d K) : Vector3d K := ⟨t * a.x, t * a.y, t * a.z⟩

def dot (a b : Vector3d K) : K := a.x * b.x + a.y * b.y + a.z * b.z

def norm (a : Vector3d K) : K := Scalar.sqrt (a.dot a)

@[simp] theorem add_x (a b : Vector3d K) : (a + b).x = a.x + b.x := rfl
@[simp] theorem add_y (a b : Vector3d K) : (a + b).y = a.y + b.y := rfl
@[simp] theorem add_z (a b : Vector3d K) : (a + b).z = a.z + b.z := rfl
@[simp] theorem sub_x (a b : Vector3d K) : (a - b).x = a.x - b.x := rfl
@[simp] theorem sub_y (a b : Vector3d K) : (a - b).y = a.y - b.y := rfl
@[simp] theorem sub_z (a b : Vector3d K) : (a - b).z = a.z - b.z := rfl

@[simp] theorem add_sub_cancel_left' (a b : Vector3d K) : a + b - a = b := by
  ext <;> simp

@[simp] theorem add_sub_cancel' (a b : Vector3d K) : a + (b - a) = b := by
  ext <;> simp

/-- The length of the difference does not depend on its direction. -/
theorem norm_sub_comm (a b : Vector3d K) : (a - b).norm = (b - a).norm := by
  have hdot : (a - b).dot (a - b) = (b - a).dot (b - a) := by
    simp only [dot, sub_x, sub_y, sub_z]
    ring
  unfold norm
  rw [hdot]

theorem norm_sub_self (a : Vector3d K) : (a - a).norm = 0 := by
  have hdot : (a - a).dot (a - a) = 0 * 0 := by simp [dot]
  unfold norm
  rw [hdot]
  exact Scalar.sqrt_mul_self 0 le_rfl

/-- No component is zero. -/
def Invertible (a : Vector3d K) : Prop := a.x ≠ 0 ∧ a.y ≠ 0 ∧ a.z ≠ 0

theorem scale_unscale {s : Vector3d K} (hs : s.Invertible) (a : Vector3d K) :
    s.scale (s.unscale.scale a) = a := by
  ext <;> simp [scale, unscale, hs.1, hs.2.1, hs.2.2]

end Operations

end Vector3d
