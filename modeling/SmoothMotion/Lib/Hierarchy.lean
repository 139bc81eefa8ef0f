-- SUMMARY: Nodes whose data is relative to the nodes above them, and assigning them so that all fit together.
import Mathlib.Data.List.Basic
import Mathlib.Logic.Function.Basic

/-!
# Assignments in a hierarchy

Every node has local data, and what the node looks like from outside depends on
its own data and on the data along its path of ancestors. An assignment to a
node solves for the local data that gives a wanted outside value under the
present data of the path. It disturbs the nodes below, whose path it changes,
and no others; so after assignments in an order in which ancestors come first,
every node fits. Assigning it once more then changes nothing, whatever is below
it.
-/

namespace Hierarchy

variable {ι L : Type} [DecidableEq ι] (path : ι → List ι) (solve : ι → List L → L)

/-- Give node `i` the data that fits the present data of its path. -/
def assign (pose : ι → L) (i : ι) : ι → L :=
  Function.update pose i (solve i ((path i).map pose))

/-- Node `i` has the data an assignment would give it. -/
def Fitted (pose : ι → L) (i : ι) : Prop := pose i = solve i ((path i).map pose)

/-- Every node of `order` comes after the nodes of its path. -/
def AncestorsFirst (order : List ι) : Prop :=
  ∀ l₁ i l₂, order = l₁ ++ i :: l₂ → ∀ a ∈ path i, a ∈ l₁

variable {path solve} {pose : ι → L}

/-- Assigning a node that fits changes nothing. -/
theorem Fitted.assign_eq {i : ι} (h : Fitted path solve pose i) : assign path solve pose i = pose := by
  unfold assign
  rw [← h, Function.update_eq_self]

/-- An assignment is not seen by a node that is neither the assigned one nor
    below it. -/
theorem Fitted.assign_of_not_mem {i m : ι} (h : Fitted path solve pose m) (hm : m ≠ i)
    (hpath : i ∉ path m) : Fitted path solve (assign path solve pose i) m := by
  have hmap : (path m).map (assign path solve pose i) = (path m).map pose := by
    refine List.map_congr_left fun a ha => ?_
    have : a ≠ i := fun heq => hpath (heq ▸ ha)
    simp [assign, this]
  unfold Fitted
  rw [hmap, ← h]
  simp [assign, hm]

theorem assign_self {i : ι} (hpath : i ∉ path i) :
    Fitted path solve (assign path solve pose i) i := by
  have hmap : (path i).map (assign path solve pose i) = (path i).map pose := by
    refine List.map_congr_left fun a ha => ?_
    have : a ≠ i := fun heq => hpath (heq ▸ ha)
    simp [assign, this]
  unfold Fitted
  rw [hmap]
  simp [assign]

/-- Nothing but the assigned node changes. -/
theorem assign_of_ne {i m : ι} (h : m ≠ i) : assign path solve pose i m = pose m :=
  Function.update_of_ne h _ _

/-- One assignment: if the nodes of `done` fit, and neither they nor `i` are below
    `i` unless `i` is one of them, then the nodes of `done` and `i` fit afterwards. -/
theorem assign_fitted {done : List ι} {i : ι} (hdone : ∀ m ∈ done, Fitted path solve pose m)
    (hbelow : i ∉ done → ∀ m ∈ done ++ [i], i ∉ path m) :
    ∀ m ∈ done ++ [i], Fitted path solve (assign path solve pose i) m := by
  intro m hm
  by_cases hmem : i ∈ done
  · rw [(hdone i hmem).assign_eq]
    rcases List.mem_append.mp hm with hm | hm
    · exact hdone m hm
    · obtain rfl := List.mem_singleton.mp hm
      exact hdone m hmem
  · have hpath : i ∉ path m := hbelow hmem m hm
    rcases List.mem_append.mp hm with hm | hm
    · have hne : m ≠ i := fun heq => hmem (heq ▸ hm)
      exact (hdone m hm).assign_of_not_mem hne hpath
    · obtain rfl := List.mem_singleton.mp hm
      exact assign_self hpath

/-! ## Assignments along a list -/

section Order

variable {order : List ι}

/-- Whatever is listed and stands above a listed node comes before it; the list
    need not have all that stands above. -/
def ListedFirst (path : ι → List ι) (order : List ι) : Prop :=
  ∀ l₁ i l₂, order = l₁ ++ i :: l₂ → ∀ a ∈ path i, a ∈ order → a ∈ l₁

omit [DecidableEq ι] in
theorem AncestorsFirst.listed (h : AncestorsFirst path order) : ListedFirst path order :=
  fun l₁ i l₂ hsplit a ha _ => h l₁ i l₂ hsplit a ha

omit [DecidableEq ι] in
theorem ListedFirst.mem_take (h : ListedFirst path order) {j : Nat} (hj : j < order.length) {a : ι}
    (ha : a ∈ path order[j]) (hmem : a ∈ order) : a ∈ order.take j :=
  h (order.take j) order[j] (order.drop (j + 1)) (by simp) a ha hmem

/-- The first `k` nodes of the list fit. -/
def FittedUpTo (path : ι → List ι) (solve : ι → List L → L) (order : List ι) (k : Nat)
    (pose : ι → L) : Prop :=
  ∀ i ∈ order.take k, Fitted path solve pose i

omit [DecidableEq ι] in
theorem FittedUpTo.mono {k k' : Nat} (h : FittedUpTo path solve order k pose) (hk : k' ≤ k) :
    FittedUpTo path solve order k' pose :=
  fun i hi => h i (List.take_subset_take_left order hk hi)

/-- An assignment to a node that fits, or to the next one. -/
theorem FittedUpTo.assign (horder : ListedFirst path order) {j k : Nat} (hj : j < order.length)
    (hjk : j ≤ k) (h : FittedUpTo path solve order k pose) :
    FittedUpTo path solve order (max k (j + 1)) (assign path solve pose order[j]) := by
  rcases Nat.lt_or_eq_of_le hjk with hlt | rfl
  · have hfits : Fitted path solve pose order[j] := h _ (List.mem_take_iff_getElem.mpr
      ⟨j, by omega, rfl⟩)
    rw [hfits.assign_eq, Nat.max_eq_left hlt]
    exact h
  · rw [Nat.max_eq_right (Nat.le_succ j)]
    unfold FittedUpTo
    rw [List.take_succ_eq_append_getElem hj]
    refine assign_fitted h fun hnew m hm habove => hnew ?_
    rw [← List.take_succ_eq_append_getElem hj] at hm
    obtain ⟨l, hl, rfl⟩ := List.mem_take_iff_getElem.mp hm
    have hbefore := horder.mem_take (by omega) habove (List.getElem_mem hj)
    exact List.take_subset_take_left order (by omega) hbefore

/-- After assigning the nodes of a list, ancestors first, all of them fit,
    whatever the pose was before. -/
theorem foldl_assign_fitted (h : ListedFirst path order) (pose : ι → L) :
    ∀ i ∈ order, Fitted path solve (order.foldl (assign path solve) pose) i := by
  have hprefix : ∀ k, k ≤ order.length →
      FittedUpTo path solve order k ((order.take k).foldl (Hierarchy.assign path solve) pose) := by
    intro k
    induction k with
    | zero =>
      intro _ i hi
      simp at hi
    | succ k ih =>
      intro hk
      rw [List.take_succ_eq_append_getElem hk, List.foldl_append, List.foldl_cons, List.foldl_nil]
      exact ((ih (by omega)).assign h hk (Nat.le_refl _)).mono (by omega)
  intro i hi
  have hall := hprefix order.length (Nat.le_refl _)
  unfold FittedUpTo at hall
  rw [List.take_length] at hall
  exact hall i hi

end Order

end Hierarchy
