-- SUMMARY: Collider: a half-space given by a point and a normal, and how deep a point lies in it.
import SmoothMotion.Lib.Vector3

structure Collider (K : Type) where
  planePosition : Vector3d K
  planeNormal : Vector3d K
deriving DecidableEq, Repr

namespace Collider

variable {K : Type}

/-- The numbers of a collider in the order they are read. -/
def toList (c : Collider K) : List K := c.planePosition.toList ++ c.planeNormal.toList

@[simp] theorem length_toList (c : Collider K) : c.toList.length = 6 := rfl

theorem toList_injective : Function.Injective (toList : Collider K → List K) := by
  rintro ⟨p, n⟩ ⟨p', n'⟩ h
  obtain ⟨hp, hn⟩ := List.append_inj h rfl
  have hposition : p = p' := Vector3d.toList_injective hp
  have hnormal : n = n' := Vector3d.toList_injective hn
  subst hposition hnormal
  rfl

variable [Scalar K]

def intersectsPlane (c : Collider K) (point : Vector3d K) : K :=
  let intersectionVector := c.planePosition - point
  let intersection := intersectionVector.dot c.planeNormal
  if intersection < 0 then 0 else intersection

/-- The point lies in front of the plane, beyond its surface. -/
def Penetrates (c : Collider K) (point : Vector3d K) : Prop :=
  0 < (c.planePosition - point).dot c.planeNormal

theorem intersectsPlane_eq_zero_iff (c : Collider K) (point : Vector3d K) :
    c.intersectsPlane point = 0 ↔ ¬ c.Penetrates point := by
  simp only [intersectsPlane, Penetrates]
  split
  · next h => simpa using h.le
  · next h =>
    rw [not_lt] at h ⊢
    exact ⟨fun heq => heq.le, fun hle => le_antisymm hle h⟩

end Collider
