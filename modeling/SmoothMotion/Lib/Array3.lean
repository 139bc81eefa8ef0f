-- SUMMARY: Arrays with three indices, and the rule for loops that fill one cell by cell.
import SmoothMotion.Lib.Loop

/-!
# Arrays with three indices

Three nested loops visit the cells layer by layer and row by row and write each
one once. Each cell is computed on a state that computing the earlier ones has
left behind, so the rule carries an invariant of that state from cell to cell,
and every cell is judged by what held when it was written.
-/

/-- An array of `n` rows, `m` columns and `k` layers. -/
structure Array3 (α : Type) (n m k : Nat) where
  get : Fin n → Fin m → Fin k → α

namespace Array3

variable {α ε σ : Type} {n m k : Nat}

/-- An array with one value everywhere. -/
def replicate (value : α) : Array3 α n m k := ⟨fun _ _ _ => value⟩

/-- `a[x, y, z] = value`. -/
def set (a : Array3 α n m k) (x : Fin n) (y : Fin m) (z : Fin k) (value : α) : Array3 α n m k :=
  ⟨fun i j l => if i = x ∧ j = y ∧ l = z then value else a.get i j l⟩

@[simp] theorem get_set_self (a : Array3 α n m k) (x : Fin n) (y : Fin m) (z : Fin k) (value : α) :
    (a.set x y z value).get x y z = value := by
  simp [set]

theorem get_set_of_ne (a : Array3 α n m k) {x i : Fin n} {y j : Fin m} {z l : Fin k} (value : α)
    (h : ¬ (i = x ∧ j = y ∧ l = z)) : (a.set x y z value).get i j l = a.get i j l := by
  simp [set, h]

/-! ## Filling -/

/-- The cells the loops have visited before they come to column `y` of row `x` of
    layer `z` are right. -/
def FilledTo (right : Fin n → Fin m → Fin k → α → Prop) (z x y : Nat) (a : Array3 α n m k) : Prop :=
  ∀ (i : Fin n) (j : Fin m) (l : Fin k),
    (l : Nat) < z ∨ (l : Nat) = z ∧ ((i : Nat) < x ∨ (i : Nat) = x ∧ (j : Nat) < y) →
      right i j l (a.get i j l)

section FilledTo

variable {right : Fin n → Fin m → Fin k → α → Prop} {a : Array3 α n m k}

theorem filledTo_zero : FilledTo right 0 0 0 a := by
  intro i j l h
  omega

theorem FilledTo.set {x : Fin n} {y : Fin m} {z : Fin k} {value : α} (h : FilledTo right z x y a)
    (hvalue : right x y z value) : FilledTo right z x (y + 1) (a.set x y z value) := by
  intro i j l hvisited
  by_cases hhere : i = x ∧ j = y ∧ l = z
  · obtain ⟨rfl, rfl, rfl⟩ := hhere
    rwa [get_set_self]
  · rw [get_set_of_ne a value hhere]
    apply h
    simp only [Fin.ext_iff] at hhere
    omega

/-- At the end of a row. -/
theorem FilledTo.nextRow {z x : Nat} (h : FilledTo right z x m a) : FilledTo right z (x + 1) 0 a := by
  intro i j l hvisited
  apply h
  omega

/-- At the end of a layer. -/
theorem FilledTo.nextLayer {z : Nat} (h : FilledTo right z n 0 a) : FilledTo right (z + 1) 0 0 a := by
  intro i j l hvisited
  apply h
  omega

end FilledTo

/-- `for z { for x { for y { a[x, y, z] = cell } } }`: an invariant of the state
    that leads from each cell to the next, and under which the cell is right. -/
theorem fill_script (cell : Fin k → Fin n → Fin m → Script ε σ α)
    (Inv : Nat → Nat → Nat → σ → Prop) (right : Fin n → Fin m → Fin k → α → Prop)
    (hcell : ∀ (z : Fin k) (x : Fin n) (y : Fin m) s, Inv z x y s →
      ∃ value s', (cell z x y).exec s = (.ok value, s') ∧ Inv z x (y + 1) s' ∧ right x y z value)
    (hrow : ∀ z x s, Inv z x m s → Inv z (x + 1) 0 s)
    (hlayer : ∀ z s, Inv z n 0 s → Inv (z + 1) 0 0 s) {s : σ} (hinit : Inv 0 0 0 s)
    (a : Array3 α n m k) :
    ∃ a' s', (forFin k (fun z => forFin n fun x => forFin m fun y a => do
        return a.set x y z (← cell z x y)) a : Script ε σ (Array3 α n m k)).exec s = (.ok a', s') ∧
      ∀ i j l, right i j l (a'.get i j l) := by
  -- the cells of a row
  have hrowRun : ∀ (z : Fin k) (x : Fin n) (a : Array3 α n m k) (s : σ),
      Inv z x 0 s ∧ FilledTo right z x 0 a → ∃ a' s',
        (forFin m (fun y a => do return a.set x y z (← cell z x y)) a :
          Script ε σ (Array3 α n m k)).exec s = (.ok a', s') ∧
        Inv z (x + 1) 0 s' ∧ FilledTo right z (x + 1) 0 a' := by
    intro z x a s hstart
    obtain ⟨a', s', hrun, hinv, hfilled⟩ := forFin_script
      (fun y a s => Inv z x y s ∧ FilledTo right z x y a) (fun y a s hy => by
        obtain ⟨value, s', hrun, hinv, hvalue⟩ := hcell z x y s hy.1
        refine ⟨a.set x y z value, s', ?_, hinv, hy.2.set hvalue⟩
        rw [Script.exec_bind_ok hrun]
        rfl) hstart
    exact ⟨a', s', hrun, hrow z x s' hinv, hfilled.nextRow⟩
  -- the rows of a layer
  have hlayerRun : ∀ (z : Fin k) (a : Array3 α n m k) (s : σ),
      Inv z 0 0 s ∧ FilledTo right z 0 0 a → ∃ a' s',
        (forFin n (fun x => forFin m fun y a => do return a.set x y z (← cell z x y)) a :
          Script ε σ (Array3 α n m k)).exec s = (.ok a', s') ∧
        Inv (z + 1) 0 0 s' ∧ FilledTo right (z + 1) 0 0 a' := by
    intro z a s hstart
    obtain ⟨a', s', hrun, hinv, hfilled⟩ := forFin_script
      (fun x a s => Inv z x 0 s ∧ FilledTo right z x 0 a) (hrowRun z) hstart
    exact ⟨a', s', hrun, hlayer z s' hinv, hfilled.nextLayer⟩
  obtain ⟨a', s', hrun, -, hfilled⟩ := forFin_script
    (fun z a s => Inv z 0 0 s ∧ FilledTo right z 0 0 a) hlayerRun
    (And.intro hinit (filledTo_zero (a := a)))
  exact ⟨a', s', hrun, fun i j l => hfilled i j l (.inl l.isLt)⟩

end Array3
