-- SUMMARY: Values on a cycle, and straight interpolation between one and the next at any phase.
import Mathlib.Data.List.GetD
import Mathlib.Tactic.Linarith
import SmoothMotion.Lib.Vector3

/-!
# Cycles

Whole phases are the places of a cycle of `n` values, counted around and around;
in between the value moves straight from one place to the next, and from the
last place to the first.
-/

namespace Cycle

/-- The place of step `i` on a cycle of `n`. -/
def place (n : Nat) (i : Int) : Nat := (i % n).toNat

theorem place_lt {n : Nat} (hn : 0 < n) (i : Int) : place n i < n := by
  have hpos : 0 ≤ i % n := Int.emod_nonneg i (by omega)
  have hlt : i % n < n := Int.emod_lt_of_pos i (by omega)
  unfold place
  omega

theorem place_coe {n : Nat} (hn : 0 < n) (i : Int) : (place n i : Int) = i % n :=
  Int.toNat_of_nonneg (Int.emod_nonneg i (by omega))

/-- The next place, around the end of the cycle too. -/
theorem place_succ {n : Nat} (hn : 0 < n) (i : Int) : (place n i + 1) % n = place n (i + 1) := by
  have hcoe : ((place n i + 1) % n : Nat) = (place n (i + 1) : Int) := by
    rw [place_coe hn, Int.natCast_mod, Nat.cast_add, place_coe hn, Nat.cast_one, Int.emod_add_emod]
  exact_mod_cast hcoe

/-- A whole turn leads back to the same place. -/
@[simp] theorem place_add_turn (n : Nat) (i : Int) : place n (i + n) = place n i := by
  unfold place
  rw [Int.add_emod_right]

variable {K : Type} [Scalar K]

/-- The value at phase `p`. -/
def interpolate (values : List (Vector3d K)) (p : K) : Vector3d K :=
  let previous := values.getD (place values.length ⌊p⌋) ⟨0, 0, 0⟩
  let next := values.getD (place values.length (⌊p⌋ + 1)) ⟨0, 0, 0⟩
  previous + Vector3d.smul (p - ⌊p⌋) (next - previous)

/-- A turn more changes nothing. -/
theorem interpolate_add_turn (values : List (Vector3d K)) (p : K) :
    interpolate values (p + values.length) = interpolate values p := by
  have hfloor : ⌊p + (values.length : K)⌋ = ⌊p⌋ + values.length := Int.floor_add_natCast p _
  have hnext : ⌊p⌋ + values.length + 1 = ⌊p⌋ + 1 + (values.length : Int) := by omega
  have hfraction : p + (values.length : K) - ((⌊p⌋ + values.length : Int) : K) = p - ⌊p⌋ := by
    push_cast
    ring
  unfold interpolate
  rw [hfloor, place_add_turn, hnext, place_add_turn, hfraction]

/-- At a whole phase the next value does not matter. -/
theorem add_smul_zero (a b : Vector3d K) : a + Vector3d.smul 0 (b - a) = a := by
  ext <;> simp [Vector3d.smul]

/-! ## Convex sets -/

/-- With two points the set has all those between them. -/
def Convex (P : Vector3d K → Prop) : Prop :=
  ∀ a b t, 0 ≤ t → t ≤ 1 → P a → P b → P (a + Vector3d.smul t (b - a))

/-- At no phase does interpolation leave it. -/
theorem Convex.interpolate {P : Vector3d K → Prop} (hP : Convex P) {values : List (Vector3d K)}
    (hne : values ≠ []) (hvalues : ∀ v ∈ values, P v) (p : K) : P (interpolate values p) := by
  have hplace : ∀ i, P (values.getD (place values.length i) ⟨0, 0, 0⟩) := by
    intro i
    have hlt := place_lt (List.length_pos_of_ne_nil hne) i
    rw [List.getD_eq_getElem _ _ hlt]
    exact hvalues _ (List.getElem_mem hlt)
  unfold Cycle.interpolate
  rw [Int.self_sub_floor]
  exact hP _ _ _ (Int.fract_nonneg p) (Int.fract_lt_one p).le (hplace _) (hplace _)

theorem Convex.forall {α : Type} {l : List α} {P : α → Vector3d K → Prop}
    (h : ∀ a ∈ l, Convex (P a)) : Convex fun v => ∀ a ∈ l, P a v :=
  fun u v t h₀ h₁ hu hv a ha => h a ha u v t h₀ h₁ (hu a ha) (hv a ha)

/-- A value between two values above a bound is above it. -/
theorem lt_add_smul {a b c t : K} (h₀ : 0 ≤ t) (h₁ : t ≤ 1) (ha : c < a) (hb : c < b) :
    c < a + t * (b - a) := by
  have hsplit : a + t * (b - a) - c = (1 - t) * (a - c) + t * (b - c) := by ring
  have hleft : 0 ≤ (1 - t) * (a - c) := mul_nonneg (sub_nonneg.mpr h₁) (sub_pos.mpr ha).le
  have hright : 0 ≤ t * (b - c) := mul_nonneg h₀ (sub_pos.mpr hb).le
  rcases h₀.eq_or_lt with rfl | hpos
  · simpa using ha
  · have hstrict : 0 < t * (b - c) := mul_pos hpos (sub_pos.mpr hb)
    linarith

end Cycle
