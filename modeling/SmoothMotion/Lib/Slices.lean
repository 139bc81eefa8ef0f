-- SUMMARY: Slices of an array, gathered into one list and scattered back.
import Mathlib.Algebra.GroupWithZero.Nat
import Mathlib.Data.List.Basic
import Mathlib.Data.List.TakeDrop
import Mathlib.Tactic.Common

/-!
# Slices of an array

`gather` lays slices of an array out in one list, and `scatter` writes such a
list back. Where the slices do not overlap, each undoes the other, and what lies
in no slice is left alone.
-/

/-- `size` elements from `start` on. -/
structure Extent where
  start : Nat
  size : Nat
deriving DecidableEq, Repr

namespace Extent

variable {α : Type} {memory xs : List α} {e e' : Extent} {es : List Extent} {i : Nat}

def stop (e : Extent) : Nat := e.start + e.size

/-- One ends where the other begins, or before. -/
def Apart (e e' : Extent) : Prop := e.stop ≤ e'.start ∨ e'.stop ≤ e.start

theorem Apart.symm (h : e.Apart e') : e'.Apart e := Or.symm h

def slice (memory : List α) (e : Extent) : List α := (memory.drop e.start).take e.size

/-- `memory` with `xs` in place of the slice. -/
def splice (memory : List α) (e : Extent) (xs : List α) : List α :=
  memory.take e.start ++ xs ++ memory.drop e.stop

/-! ## One slice -/

theorem getElem?_slice (memory : List α) (e : Extent) (i : Nat) :
    (slice memory e)[i]? = if i < e.size then memory[e.start + i]? else none := by
  simp [slice, List.getElem?_take]

theorem length_slice (h : e.stop ≤ memory.length) : (slice memory e).length = e.size := by
  unfold stop at h
  simp [slice]
  omega

theorem length_splice (h : e.stop ≤ memory.length) (hxs : xs.length = e.size) :
    (splice memory e xs).length = memory.length := by
  unfold stop at h
  simp [splice, stop, hxs]
  omega

theorem getElem?_splice (h : e.stop ≤ memory.length) (hxs : xs.length = e.size) (i : Nat) :
    (splice memory e xs)[i]? =
      if i < e.start then memory[i]? else if i < e.stop then xs[i - e.start]? else memory[i]? := by
  have htake : (memory.take e.start).length = e.start := by
    unfold stop at h
    simp
    omega
  unfold splice
  split
  · rename_i hbefore
    rw [List.append_assoc, List.getElem?_append_left (by omega), List.getElem?_take_of_lt hbefore]
  · rename_i hfrom
    rw [List.append_assoc, List.getElem?_append_right (by omega), htake]
    split
    · rename_i hinside
      unfold stop at hinside
      rw [List.getElem?_append_left (by omega)]
    · rename_i hbehind
      unfold stop at hbehind
      rw [List.getElem?_append_right (by omega), List.getElem?_drop]
      congr 1
      simp only [stop]
      omega

theorem slice_splice_self (h : e.stop ≤ memory.length) (hxs : xs.length = e.size) :
    slice (splice memory e xs) e = xs := by
  apply List.ext_getElem?
  intro i
  rw [getElem?_slice, getElem?_splice h hxs]
  split
  · rw [if_neg (by omega), if_pos (by unfold stop; omega), Nat.add_sub_cancel_left]
  · exact (List.getElem?_eq_none (by omega)).symm

theorem splice_slice_self (memory : List α) (e : Extent) :
    splice memory e (slice memory e) = memory := by
  have htail : (memory.drop e.start).drop e.size = memory.drop e.stop := by
    rw [List.drop_drop, stop]
  rw [splice, slice, ← htail, List.append_assoc, List.take_append_drop, List.take_append_drop]

/-! ## Many slices -/

/-- The slices, one behind the other. -/
def gather (memory : List α) (es : List Extent) : List α := es.flatMap (slice memory)

/-- Each slice is written from the front of what is left of `state`. -/
def scatter : List Extent → List α → List α → List α
  | [], _, memory => memory
  | e :: es, state, memory =>
    scatter es (state.drop e.size) (splice memory e (state.take e.size))

/-- How many elements the slices have. -/
def total (es : List Extent) : Nat := (es.map size).sum

/-- Every slice is inside an array of that length. -/
def Fit (length : Nat) (es : List Extent) : Prop := ∀ e ∈ es, e.stop ≤ length

theorem length_gather (h : Fit memory.length es) : (gather memory es).length = total es := by
  induction es with
  | nil => rfl
  | cons e es ih =>
    have htail := ih fun e' he' => h e' (by simp [he'])
    simp only [gather, total] at htail ⊢
    simp [length_slice (h e (by simp)), htail]

theorem length_scatter {state : List α} (h : Fit memory.length es)
    (hstate : total es ≤ state.length) : (scatter es state memory).length = memory.length := by
  induction es generalizing state memory with
  | nil => rfl
  | cons e es ih =>
    simp only [total, List.map_cons, List.sum_cons] at hstate
    have hfirst : (splice memory e (state.take e.size)).length = memory.length :=
      length_splice (h e (by simp)) (by simp; omega)
    rw [scatter, ih, hfirst]
    · rw [hfirst]
      exact fun e' he' => h e' (by simp [he'])
    · simp only [total, List.length_drop]
      omega

/-- What is in no slice is not written. -/
theorem getElem?_scatter {state : List α} (h : Fit memory.length es)
    (hstate : total es ≤ state.length) (hout : ∀ e ∈ es, i < e.start ∨ e.stop ≤ i) :
    (scatter es state memory)[i]? = memory[i]? := by
  induction es generalizing state memory with
  | nil => rfl
  | cons e es ih =>
    simp only [total, List.map_cons, List.sum_cons] at hstate
    have hsize : (state.take e.size).length = e.size := by simp; omega
    have hfit := h e (by simp)
    rw [scatter, ih, getElem?_splice hfit hsize]
    · rcases hout e (by simp) with hbefore | hbehind
      · rw [if_pos hbefore]
      · rw [if_neg (by unfold stop at hbehind; omega), if_neg (by omega)]
    · rw [length_splice hfit hsize]
      exact fun e' he' => h e' (by simp [he'])
    · simp only [total, List.length_drop]
      omega
    · exact fun e' he' => hout e' (by simp [he'])

/-- A slice apart from all others is not written. -/
theorem slice_scatter {state : List α} (h : Fit memory.length es)
    (hstate : total es ≤ state.length) (hapart : ∀ e' ∈ es, e'.Apart e) :
    slice (scatter es state memory) e = slice memory e := by
  apply List.ext_getElem?
  intro i
  rw [getElem?_slice, getElem?_slice]
  split
  · rename_i hi
    apply getElem?_scatter h hstate
    intro e' he'
    have hside := hapart e' he'
    simp only [Apart, stop] at hside ⊢
    omega
  · rfl

/-- Reading the slices after writing them. -/
theorem gather_scatter {state : List α} (h : Fit memory.length es)
    (hapart : es.Pairwise Apart) (hstate : state.length = total es) :
    gather (scatter es state memory) es = state := by
  induction es generalizing state memory with
  | nil =>
    simp only [total, List.map_nil, List.sum_nil, List.length_eq_zero_iff] at hstate
    rw [hstate]
    rfl
  | cons e es ih =>
    obtain ⟨hfirst, hrest⟩ := List.pairwise_cons.mp hapart
    simp only [total, List.map_cons, List.sum_cons] at hstate
    have hsize : (state.take e.size).length = e.size := by simp; omega
    have hfit := h e (by simp)
    have hfits : Fit (splice memory e (state.take e.size)).length es := by
      rw [length_splice hfit hsize]
      exact fun e' he' => h e' (by simp [he'])
    have htotal : (state.drop e.size).length = total es := by
      simp only [total, List.length_drop]
      omega
    have hhead : slice (scatter es (state.drop e.size) (splice memory e (state.take e.size))) e =
        state.take e.size := by
      rw [slice_scatter hfits (Nat.le_of_eq htotal.symm) fun e' he' => (hfirst e' he').symm,
        slice_splice_self hfit hsize]
    have htail := ih hfits hrest htotal
    rw [scatter, gather, List.flatMap_cons, hhead]
    exact (congrArg (state.take e.size ++ ·) htail).trans (List.take_append_drop _ _)

/-- Writing the slices as they were read. -/
theorem scatter_gather (h : Fit memory.length es) : scatter es (gather memory es) memory = memory := by
  induction es with
  | nil => rfl
  | cons e es ih =>
    have hfit := h e (by simp)
    have hlength := length_slice hfit
    rw [scatter, gather, List.flatMap_cons, ← hlength, List.take_left, List.drop_left,
      splice_slice_self]
    exact ih fun e' he' => h e' (by simp [he'])

end Extent
