-- SUMMARY: Rounding to significant digits in any base, and which values it leaves alone.
import Mathlib.Data.Int.Log
import Mathlib.Algebra.Order.Floor.Ring
import Mathlib.Tactic.Ring

/-!
# Rounding to significant digits

A positive value is scaled so that the digits to be kept stand in front of the
point, rounded to the nearest integer, and scaled back. Where the value lies
halfway between two integers the rounding mode decides; nothing here depends on
which way.
-/

namespace Rounding

variable {K : Type} [Field K] [LinearOrder K] [IsStrictOrderedRing K] [FloorRing K]

/-- The nearest integer. Halfway between two, `tieUp` of the lower one says
    whether it is the upper one. -/
def nearest (tieUp : Int → Bool) (x : K) : Int :=
  if Int.fract x < 1 - Int.fract x then ⌊x⌋
  else if 1 - Int.fract x < Int.fract x then ⌊x⌋ + 1
  else if tieUp ⌊x⌋ then ⌊x⌋ + 1 else ⌊x⌋

section Nearest

variable {tieUp : Int → Bool} {x : K} {n : Int}

@[simp] theorem nearest_intCast (n : Int) : nearest tieUp (n : K) = n := by
  have hlower : Int.fract (n : K) < 1 - Int.fract (n : K) := by
    rw [Int.fract_intCast, sub_zero]
    exact one_pos
  unfold nearest
  rw [if_pos hlower, Int.floor_intCast]

omit [IsStrictOrderedRing K] in
theorem floor_le_nearest : ⌊x⌋ ≤ nearest tieUp x := by
  unfold nearest
  split_ifs <;> omega

omit [IsStrictOrderedRing K] in
/-- Rounding does not go past an integer. -/
theorem le_nearest (h : (n : K) ≤ x) : n ≤ nearest tieUp x :=
  (Int.le_floor.mpr h).trans floor_le_nearest

theorem nearest_le (h : x ≤ n) : nearest tieUp x ≤ n := by
  rcases h.lt_or_eq with hlt | rfl
  · have hfloor : ⌊x⌋ < n := Int.floor_lt.mpr hlt
    unfold nearest
    split_ifs <;> omega
  · rw [nearest_intCast]

end Nearest

/-- At most `p` significant digits in base `b`. -/
def HasDigits (b p : Nat) (x : K) : Prop :=
  ∃ n k : Int, |n| < (b : Int) ^ p ∧ x = n * (b : K) ^ k

section HasDigits

variable {b p : Nat} {x : K}

omit [IsStrictOrderedRing K] [LinearOrder K] [FloorRing K] in
theorem hasDigits_zero (hb : 1 < b) : HasDigits b p (0 : K) :=
  ⟨0, 0, by rw [abs_zero]; exact pow_pos (by omega) p, by simp⟩

omit [IsStrictOrderedRing K] [LinearOrder K] [FloorRing K] in
theorem HasDigits.neg (h : HasDigits b p x) : HasDigits b p (-x) := by
  obtain ⟨n, k, hn, rfl⟩ := h
  exact ⟨-n, k, by rwa [abs_neg], by push_cast; ring⟩

omit [IsStrictOrderedRing K] [FloorRing K] in
theorem hasDigits_abs_iff : HasDigits b p |x| ↔ HasDigits b p x := by
  rcases abs_choice x with h | h
  · rw [h]
  · rw [h]
    exact ⟨fun hx => neg_neg x ▸ hx.neg, HasDigits.neg⟩

end HasDigits

/-- Significand and exponent of a positive value rounded to one digit in front
    of the point and `q` behind it: rounding up may take it to the next power. -/
def round (tieUp : Int → Bool) (b q : Nat) (x : K) : Nat × Int :=
  let exponent := Int.log b x
  let significand := (nearest tieUp (x / (b : K) ^ (exponent - q))).toNat
  if significand = b ^ (q + 1) then (b ^ q, exponent + 1) else (significand, exponent)

/-- The value with this significand and exponent. -/
def value {F : Type} [Field F] (b q : Nat) (r : Nat × Int) : F := r.1 * (b : F) ^ (r.2 - q)

section Round

variable {b q : Nat} {x : K}

omit [FloorRing K] in
theorem zpow_base_pos (hb : 1 < b) (k : Int) : (0 : K) < (b : K) ^ k :=
  zpow_pos (Nat.cast_pos.mpr (by omega)) k

/-- The scaled value has one digit more than `q` in front of the point. -/
theorem scaled_bounds (hb : 1 < b) (q : Nat) (hx : 0 < x) :
    (((b : Int) ^ q : Int) : K) ≤ x / (b : K) ^ (Int.log b x - q) ∧
      x / (b : K) ^ (Int.log b x - q) < (((b : Int) ^ (q + 1) : Int) : K) := by
  have hne : (b : K) ≠ 0 := Nat.cast_ne_zero.mpr (by omega)
  constructor
  · rw [le_div_iff₀ (zpow_base_pos hb _), Int.cast_pow, Int.cast_natCast, ← zpow_natCast,
      ← zpow_add₀ hne, add_sub_cancel]
    exact Int.zpow_log_le_self hb hx
  · have hexp : ((q + 1 : Nat) : Int) + (Int.log b x - q) = Int.log b x + 1 := by omega
    rw [div_lt_iff₀ (zpow_base_pos hb _), Int.cast_pow, Int.cast_natCast, ← zpow_natCast,
      ← zpow_add₀ hne, hexp]
    exact Int.lt_zpow_succ_log_self hb x

theorem nearest_scaled_bounds (tieUp : Int → Bool) (hb : 1 < b) (q : Nat) (hx : 0 < x) :
    (b : Int) ^ q ≤ nearest tieUp (x / (b : K) ^ (Int.log b x - q)) ∧
      nearest tieUp (x / (b : K) ^ (Int.log b x - q)) ≤ (b : Int) ^ (q + 1) := by
  obtain ⟨hlow, hhigh⟩ := scaled_bounds hb q hx
  exact ⟨le_nearest hlow, nearest_le hhigh.le⟩

/-- A significand has all its digits. -/
theorem round_bounds (tieUp : Int → Bool) (hb : 1 < b) (q : Nat) (hx : 0 < x) :
    b ^ q ≤ (round tieUp b q x).1 ∧ (round tieUp b q x).1 < b ^ (q + 1) := by
  obtain ⟨hlow, hhigh⟩ := nearest_scaled_bounds tieUp hb q hx
  have hlow' : b ^ q ≤ (nearest tieUp (x / (b : K) ^ (Int.log b x - q))).toNat := by
    have hcast : ((b ^ q : Nat) : Int) = (b : Int) ^ q := Nat.cast_pow b q
    omega
  have hhigh' : (nearest tieUp (x / (b : K) ^ (Int.log b x - q))).toNat ≤ b ^ (q + 1) := by
    have hcast : ((b ^ (q + 1) : Nat) : Int) = (b : Int) ^ (q + 1) := Nat.cast_pow b (q + 1)
    omega
  unfold round
  simp only
  split
  · exact ⟨le_rfl, Nat.pow_lt_pow_succ hb⟩
  · next hne => exact ⟨hlow', lt_of_le_of_ne hhigh' hne⟩

/-- Taking the next power does not change the value. -/
theorem value_round (tieUp : Int → Bool) (hb : 1 < b) (q : Nat) (hx : 0 < x) :
    value b q (round tieUp b q x) =
      (nearest tieUp (x / (b : K) ^ (Int.log b x - q)) : K) * (b : K) ^ (Int.log b x - q) := by
  have hne : (b : K) ≠ 0 := Nat.cast_ne_zero.mpr (by omega)
  have hpos : 0 ≤ nearest tieUp (x / (b : K) ^ (Int.log b x - q)) :=
    (pow_nonneg (Int.natCast_nonneg b) q).trans (nearest_scaled_bounds tieUp hb q hx).1
  have hcast : ((nearest tieUp (x / (b : K) ^ (Int.log b x - q))).toNat : K) =
      nearest tieUp (x / (b : K) ^ (Int.log b x - q)) := by
    exact_mod_cast congrArg (Int.cast (R := K)) (Int.toNat_of_nonneg hpos)
  unfold value round
  simp only
  split
  · next hcarry =>
    rw [← hcast, hcarry, Nat.cast_pow, Nat.cast_pow, ← zpow_natCast, ← zpow_natCast,
      ← zpow_add₀ hne, ← zpow_add₀ hne]
    congr 1
    omega
  · rw [hcast]

/-- The last digit of a value with at most `q + 1` digits is not below the last
    that is kept. -/
theorem HasDigits.scaled (hb : 1 < b) {n k : Int} (hn : |n| < (b : Int) ^ (q + 1)) (hx : 0 < x)
    (hvalue : x = n * (b : K) ^ k) : ∃ N : Int, x / (b : K) ^ (Int.log b x - q) = N := by
  have hne : (b : K) ≠ 0 := Nat.cast_ne_zero.mpr (by omega)
  have hlt : x < (b : K) ^ ((q : Int) + 1 + k) := by
    have hcast : (n : K) < (b : K) ^ (q + 1) := by exact_mod_cast (le_abs_self n).trans_lt hn
    rw [hvalue, zpow_add₀ hne]
    exact mul_lt_mul_of_pos_right (by exact_mod_cast hcast) (zpow_base_pos hb k)
  have hlog : Int.log b x < q + 1 + k := (Int.lt_zpow_iff_log_lt hb hx).mp hlt
  obtain ⟨j, hj⟩ := Int.eq_ofNat_of_zero_le (by omega : 0 ≤ k - (Int.log b x - q))
  have hexp : (j : Int) + (Int.log b x - q) = k := by omega
  refine ⟨n * (b : Int) ^ j, ?_⟩
  rw [div_eq_iff (zpow_base_pos hb _).ne', Int.cast_mul, Int.cast_pow, Int.cast_natCast, mul_assoc,
    ← zpow_natCast, ← zpow_add₀ hne, hexp]
  exact hvalue

/-- Rounding leaves exactly the values alone that have no more digits. -/
theorem value_round_eq_iff (tieUp : Int → Bool) (hb : 1 < b) (q : Nat) (hx : 0 < x) :
    value b q (round tieUp b q x) = x ↔ HasDigits b (q + 1) x := by
  constructor
  · intro h
    refine ⟨(round tieUp b q x).1, (round tieUp b q x).2 - q, ?_, ?_⟩
    · rw [abs_of_nonneg (Int.natCast_nonneg _)]
      exact_mod_cast (round_bounds tieUp hb q hx).2
    · rw [Int.cast_natCast]
      exact h.symm
  · rintro ⟨n, k, hn, hvalue⟩
    obtain ⟨N, hN⟩ := HasDigits.scaled hb hn hx hvalue
    rw [value_round tieUp hb q hx, hN, nearest_intCast, ← hN]
    exact div_mul_cancel₀ x (zpow_base_pos hb _).ne'

end Round

end Rounding
