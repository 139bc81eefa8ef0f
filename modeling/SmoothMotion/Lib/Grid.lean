-- SUMMARY: Row-major grids: the flat index of a cell, and lists made of equally long pieces.
import Mathlib.Data.List.Flatten
import Mathlib.Data.List.Basic

/-!
# Row-major grids

A grid of `n` rows of `w` cells is stored row after row: cell `j` of row `i`
has index `i * w + j`. The index is a bijection between the cells and
`0, …, n * w - 1`, and a list made of `n` pieces of length `w` is read through
it.
-/

namespace Grid

/-! ## Flat indices -/

theorem index_lt {n w i j : Nat} (hi : i < n) (hj : j < w) : i * w + j < n * w :=
  calc i * w + j < i * w + w := by omega
    _ = (i + 1) * w := by rw [Nat.succ_mul]
    _ ≤ n * w := Nat.mul_le_mul_right w hi

theorem index_div {w i j : Nat} (hj : j < w) : (i * w + j) / w = i := by
  rw [Nat.mul_comm, Nat.mul_add_div (by omega), Nat.div_eq_of_lt hj, Nat.add_zero]

/-- The indices of all cells, row after row, count up from `0`. -/
theorem flatMap_index (n w : Nat) :
    ((List.range n).flatMap fun i => (List.range w).map fun j => i * w + j) = List.range (n * w) := by
  induction n with
  | zero => simp
  | succ n ih => rw [List.range_succ, List.flatMap_append, ih, Nat.succ_mul, List.range_add]; simp

/-! ## Equally long pieces -/

variable {α β : Type} {piece : α → List β} {w : Nat}

theorem length_flatMap {l : List α} (hw : ∀ a ∈ l, (piece a).length = w) :
    (l.flatMap piece).length = l.length * w := by
  induction l with
  | nil => simp
  | cons a l ih =>
    rw [List.flatMap_cons, List.length_append, hw a (by simp), ih fun a ha => hw a (by simp [ha]),
      List.length_cons, Nat.succ_mul, Nat.add_comm]

/-- Element `j` of piece `i`. -/
theorem getElem?_flatMap {l : List α} (hw : ∀ a ∈ l, (piece a).length = w) {i j : Nat} (hj : j < w) :
    (l.flatMap piece)[i * w + j]? = l[i]?.bind fun a => (piece a)[j]? := by
  induction l generalizing i with
  | nil => simp
  | cons a l ih =>
    have ha : (piece a).length = w := hw a (by simp)
    cases i with
    | zero => simp [List.getElem?_append_left (show j < (piece a).length by omega)]
    | succ i =>
      have hlen : (piece a).length ≤ (i + 1) * w + j := by rw [ha, Nat.succ_mul]; omega
      have hsub : (i + 1) * w + j - (piece a).length = i * w + j := by rw [ha, Nat.succ_mul]; omega
      rw [List.flatMap_cons, List.getElem?_append_right hlen, hsub,
        ih fun a ha => hw a (by simp [ha])]
      simp

/-- Pieces of one length can be told apart in what they make up. -/
theorem flatMap_inj {l l' : List α} (hpiece : Function.Injective piece)
    (hw : ∀ a, (piece a).length = w) (hlen : l.length = l'.length)
    (h : l.flatMap piece = l'.flatMap piece) : l = l' := by
  induction l generalizing l' with
  | nil => exact (List.eq_nil_of_length_eq_zero hlen.symm).symm
  | cons a l ih =>
    cases l' with
    | nil => cases hlen
    | cons a' l' =>
      obtain ⟨ha, hl⟩ := List.append_inj h (by rw [hw, hw])
      rw [hpiece ha, ih (Nat.succ.inj hlen) hl]

end Grid
