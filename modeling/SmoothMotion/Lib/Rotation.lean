-- SUMMARY: Rotations as unit quaternions: their action on vectors and their normalised interpolation.
import Mathlib.Algebra.Quaternion
import Mathlib.Algebra.Star.Unitary
import SmoothMotion.Lib.Vector3

/-!
# Rotations

A rotation is a unit quaternion `q` and turns a vector `v` into `q v q*`. The
group structure, with the product as composition, is that of the unitary
elements.
-/

abbrev Rotation (K : Type) [Scalar K] : Type := ↥(unitary (Quaternion K))

namespace Rotation

variable {K : Type} [Scalar K]

def ofVector (v : Vector3d K) : Quaternion K := ⟨0, v.x, v.y, v.z⟩

def toVector (q : Quaternion K) : Vector3d K := ⟨q.imI, q.imJ, q.imK⟩

@[simp] theorem re_ofVector (v : Vector3d K) : (ofVector v).re = 0 := rfl
@[simp] theorem imI_ofVector (v : Vector3d K) : (ofVector v).imI = v.x := rfl
@[simp] theorem imJ_ofVector (v : Vector3d K) : (ofVector v).imJ = v.y := rfl
@[simp] theorem imK_ofVector (v : Vector3d K) : (ofVector v).imK = v.z := rfl

@[simp] theorem toVector_ofVector (v : Vector3d K) : toVector (ofVector v) = v := rfl

theorem ofVector_toVector {q : Quaternion K} (h : q.re = 0) : ofVector (toVector q) = q := by
  ext <;> simp [toVector, h]

/-- Conjugation keeps a quaternion without real part free of it. -/
private theorem re_conj_ofVector (q : Quaternion K) (v : Vector3d K) :
    (q * ofVector v * star q).re = 0 := by
  simp only [Quaternion.re_mul, Quaternion.imI_mul, Quaternion.imJ_mul, Quaternion.imK_mul,
    Quaternion.re_star, Quaternion.imI_star, Quaternion.imJ_star, Quaternion.imK_star,
    re_ofVector, imI_ofVector, imJ_ofVector, imK_ofVector]
  ring

instance : SMul (Rotation K) (Vector3d K) :=
  ⟨fun q v => toVector (q.val * ofVector v * star q.val)⟩

theorem smul_def (q : Rotation K) (v : Vector3d K) :
    q • v = toVector (q.val * ofVector v * star q.val) := rfl

instance : MulAction (Rotation K) (Vector3d K) where
  one_smul v := by
    simp [smul_def]
  mul_smul p q v := by
    rw [smul_def, smul_def, smul_def, ofVector_toVector (re_conj_ofVector q.val v)]
    simp [mul_assoc]

/-- A quaternion scaled to unit length; the identity where that has no length. -/
def normalize (q : Quaternion K) : Rotation K :=
  let r := (Scalar.sqrt (Quaternion.normSq q))⁻¹ • q
  if h : Quaternion.normSq r = 1 then
    ⟨r, by
      have hstar : star r * r = 1 := by
        rw [Quaternion.star_mul_self, h, Quaternion.coe_one]
      have hself : r * star r = 1 := by
        rw [Quaternion.self_mul_star, h, Quaternion.coe_one]
      exact Unitary.mem_iff.mpr ⟨hstar, hself⟩⟩
  else 1

/-- A rotation has unit length already. -/
theorem normalize_val (q : Rotation K) : normalize q.val = q := by
  have hself : q.val * star q.val = 1 := Unitary.mul_star_self_of_mem q.property
  have hnorm : Quaternion.normSq q.val = 1 := by
    rw [Quaternion.self_mul_star] at hself
    exact Quaternion.coe_injective hself
  have hsqrt : Scalar.sqrt (1 : K) = 1 := by
    simpa using Scalar.sqrt_mul_self (1 : K) zero_le_one
  have hscaled : (Scalar.sqrt (Quaternion.normSq q.val))⁻¹ • q.val = q.val := by
    rw [hnorm, hsqrt, inv_one, one_smul]
  have hunit : Quaternion.normSq ((Scalar.sqrt (Quaternion.normSq q.val))⁻¹ • q.val) = 1 := by
    rw [hscaled, hnorm]
  unfold normalize
  exact (dif_pos hunit).trans (Subtype.ext hscaled)

/-- `a + t (b - a)` along the shorter way, normalised. -/
def lerp (a b : Rotation K) (t : K) : Rotation K :=
  let t := max 0 (min 1 t)
  let near : Quaternion K := if (a.val * star b.val).re < 0 then -b.val else b.val
  normalize (a.val + t • (near - a.val))

theorem lerp_zero (a b : Rotation K) : lerp a b 0 = a := by
  have hclamp : max (0 : K) (min 1 0) = 0 := by
    rw [min_eq_right zero_le_one, max_self]
  simp only [lerp, hclamp, zero_smul, add_zero]
  exact normalize_val a

end Rotation
