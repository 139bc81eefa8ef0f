-- SUMMARY: Rigid motions: a rotation and a translation, which keep distances and the angles to moved normals.
import SmoothMotion.Lib.Rotation

/-!
# Rigid motions

A rotation keeps inner products, so a rigid motion keeps the distance of two points,
and how deep a point lies behind a plane that is moved along.
-/

namespace Rotation

variable {K : Type} [Scalar K]

theorem smul_sub (q : Rotation K) (v w : Vector3d K) : q • (v - w) = q • v - q • w := by
  have hsub : ofVector (v - w) = ofVector v - ofVector w := by
    ext <;> simp
  simp only [smul_def, hsub, mul_sub, sub_mul]
  ext <;> simp [toVector]

/-- A rotation keeps inner products. -/
theorem dot_smul (q : Rotation K) (v w : Vector3d K) : (q • v).dot (q • w) = v.dot w := by
  have hunit : q.val.re ^ 2 + q.val.imI ^ 2 + q.val.imJ ^ 2 + q.val.imK ^ 2 = 1 := by
    have hself : q.val * star q.val = 1 := Unitary.mul_star_self_of_mem q.property
    rw [Quaternion.self_mul_star] at hself
    rw [← Quaternion.normSq_def']
    exact Quaternion.coe_injective hself
  have hscaled : (q • v).dot (q • w) =
      (q.val.re ^ 2 + q.val.imI ^ 2 + q.val.imJ ^ 2 + q.val.imK ^ 2) ^ 2 * v.dot w := by
    simp only [smul_def, toVector, Vector3d.dot, Quaternion.re_mul, Quaternion.imI_mul,
      Quaternion.imJ_mul, Quaternion.imK_mul, Quaternion.re_star, Quaternion.imI_star,
      Quaternion.imJ_star, Quaternion.imK_star, re_ofVector, imI_ofVector, imJ_ofVector,
      imK_ofVector]
    ring
  rw [hscaled, hunit, one_pow, one_mul]

end Rotation

structure RigidMotion (K : Type) [Scalar K] where
  rotation : Rotation K
  translation : Vector3d K

namespace RigidMotion

variable {K : Type} [Scalar K]

def apply (m : RigidMotion K) (v : Vector3d K) : Vector3d K := m.rotation • v + m.translation

theorem apply_sub_apply (m : RigidMotion K) (v w : Vector3d K) :
    m.apply v - m.apply w = m.rotation • (v - w) := by
  rw [Rotation.smul_sub]
  ext <;> simp [apply]

theorem norm_apply_sub_apply (m : RigidMotion K) (v w : Vector3d K) :
    (m.apply v - m.apply w).norm = (v - w).norm := by
  rw [apply_sub_apply, Vector3d.norm, Rotation.dot_smul, Vector3d.norm]

/-- Every point is the image of one. -/
theorem apply_surjective (m : RigidMotion K) : Function.Surjective m.apply := by
  intro v
  refine ⟨m.rotation⁻¹ • (v - m.translation), ?_⟩
  rw [apply, smul_inv_smul]
  ext <;> simp

end RigidMotion
