-- SUMMARY: Sums whose terms depend on separate parts of a state: a state is best for the sum exactly if it is best for every term.
import Mathlib.Algebra.Order.BigOperators.Group.List
import Mathlib.Algebra.Order.Group.Defs
import SmoothMotion.Lib.Loop

/-!
# Separable sums

Each term of the sum is computed from the state and may fail. If every term can take
its part from another state while all other terms keep theirs, the terms have nothing
to trade with each other, and the sum is minimised term by term.
-/

namespace Separable

variable {α S K ε : Type} [AddCommGroup K]

/-- The sum of all terms. -/
def total (g : α → S → Except ε K) (l : List α) (s : S) : Except ε K :=
  l.foldlM (fun total a => do return total + (← g a s)) 0

/-- What a term gives, if it gives anything. -/
def value (x : Except ε K) : K := x.toOption.getD 0

section Total

variable {g : α → S → Except ε K} {l : List α} {s : S} {c : K}

theorem eq_ok_value {x : Except ε K} (h : ∃ v, x = .ok v) : x = .ok (value x) := by
  obtain ⟨v, rfl⟩ := h
  rfl

private theorem foldlM_eq_ok_iff (z : K) :
    l.foldlM (fun total a => do return total + (← g a s)) z = .ok c ↔
      (∀ a ∈ l, ∃ v, g a s = .ok v) ∧ c = z + (l.map fun a => value (g a s)).sum := by
  induction l generalizing z with
  | nil => simp [pure, Except.pure, eq_comm]
  | cons a l ih =>
    rw [List.foldlM_cons, List.forall_mem_cons, List.map_cons, List.sum_cons, ← add_assoc]
    constructor
    · intro h
      obtain ⟨z', hz', h⟩ := Except.bind_eq_ok h
      obtain ⟨v, hv, hz'⟩ := Except.bind_eq_ok hz'
      cases hz'
      obtain ⟨hall, rfl⟩ := (ih _).mp h
      rw [hv]
      exact ⟨⟨⟨v, rfl⟩, hall⟩, rfl⟩
    · rintro ⟨⟨⟨v, hv⟩, hall⟩, hc⟩
      rw [hv] at hc ⊢
      exact (ih (z + v)).mpr ⟨hall, hc⟩

/-- The sum is given if all terms are. -/
theorem total_eq_ok_iff : total g l s = .ok c ↔
    (∀ a ∈ l, ∃ v, g a s = .ok v) ∧ c = (l.map fun a => value (g a s)).sum := by
  have h := foldlM_eq_ok_iff (g := g) (l := l) (s := s) (c := c) 0
  rwa [zero_add] at h

end Total

/-! ## Best states -/

variable [LinearOrder K] [IsOrderedAddMonoid K] {g : α → S → Except ε K} {l : List α}
  {D : S → Prop} {s : S}

/-- The state has a value, and none in the domain has a smaller one. -/
def Best (D : S → Prop) (f : S → Except ε K) (s : S) : Prop :=
  ∃ c, f s = .ok c ∧ ∀ s' c', D s' → f s' = .ok c' → c ≤ c'

theorem Best.total (h : ∀ a ∈ l, Best D (g a) s) : Best D (total g l) s := by
  have hgiven : ∀ a ∈ l, ∃ v, g a s = .ok v := fun a ha => (h a ha).imp fun _ hv => hv.1
  refine ⟨_, total_eq_ok_iff.mpr ⟨hgiven, rfl⟩, fun s' c' hs' hc' => ?_⟩
  obtain ⟨hgiven', rfl⟩ := total_eq_ok_iff.mp hc'
  refine List.sum_le_sum fun a ha => ?_
  obtain ⟨v, hv, hmin⟩ := h a ha
  rw [hv]
  exact hmin s' _ hs' (eq_ok_value (hgiven' a ha))

/-- One term can take its part from any state of the domain, and leave the others theirs. -/
def Splices (D : S → Prop) (g : α → S → Except ε K) (l : List α) (s : S) : Prop :=
  ∀ l₁ a l₂ s', l = l₁ ++ a :: l₂ → D s' →
    ∃ s'', D s'' ∧ g a s'' = g a s' ∧ ∀ b ∈ l₁ ++ l₂, g b s'' = g b s

theorem Best.term (hsplices : Splices D g l s) (h : Best D (Separable.total g l) s) :
    ∀ a ∈ l, Best D (g a) s := by
  intro a ha
  obtain ⟨l₁, l₂, rfl⟩ := List.append_of_mem ha
  obtain ⟨c, hc, hmin⟩ := h
  obtain ⟨hgiven, rfl⟩ := total_eq_ok_iff.mp hc
  refine ⟨_, eq_ok_value (hgiven a ha), fun s' c' hs' hc' => ?_⟩
  obtain ⟨s'', hs'', hown, hothers⟩ := hsplices l₁ a l₂ s' rfl hs'
  have hgiven'' : ∀ b ∈ l₁ ++ a :: l₂, ∃ v, g b s'' = .ok v := by
    intro b hb
    rcases List.mem_append.mp hb with hb' | hb'
    · exact hothers b (by simp [hb']) ▸ hgiven b hb
    · rcases List.mem_cons.mp hb' with rfl | hb'
      · exact ⟨c', hown.trans hc'⟩
      · exact hothers b (by simp [hb']) ▸ hgiven b hb
  have hle := hmin s'' _ hs'' (total_eq_ok_iff.mpr ⟨hgiven'', rfl⟩)
  -- the sums differ in the one term only
  have hleft : (l₁.map fun b => value (g b s'')) = l₁.map fun b => value (g b s) :=
    List.map_congr_left fun b hb => by rw [hothers b (by simp [hb])]
  have hright : (l₂.map fun b => value (g b s'')) = l₂.map fun b => value (g b s) :=
    List.map_congr_left fun b hb => by rw [hothers b (by simp [hb])]
  simp only [List.map_append, List.map_cons, List.sum_append, List.sum_cons, hleft, hright, hown,
    hc'] at hle
  exact le_of_add_le_add_right (le_of_add_le_add_left hle)

/-- The best states of a separable sum are the best states of all its terms. -/
theorem best_total_iff (hsplices : Splices D g l s) :
    Best D (total g l) s ↔ ∀ a ∈ l, Best D (g a) s :=
  ⟨.term hsplices, .total⟩

end Separable
