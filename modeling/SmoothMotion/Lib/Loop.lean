-- SUMMARY: Counted loops in any monad, scripts whose effects survive an exception, and the invariant rules for loops in `Except` and in scripts.

/-!
# Loops and scripts

A script runs on a state and may throw; what it has written to the state when
it throws stays written. This is the reading of an imperative method: `Except`
alone would roll the state back.

Both kinds of program are reasoned about through one rule for counted loops: an
invariant that every iteration carries from `i` to `i + 1`, and under which the
body neither throws nor stops, holds at the end of a loop that returns.
-/

namespace Except

variable {ε α β : Type}

@[simp] theorem ok_bind (a : α) (f : α → Except ε β) : (Except.ok a >>= f) = f a := rfl

@[simp] theorem error_bind (e : ε) (f : α → Except ε β) :
    (Except.error e >>= f) = Except.error e := rfl

theorem bind_eq_error {x : Except ε α} {f : α → Except ε β} {e : ε} (h : (x >>= f) = .error e) :
    x = .error e ∨ ∃ a, x = .ok a ∧ f a = .error e := by
  cases x with
  | error e' =>
    cases h
    exact .inl rfl
  | ok a => exact .inr ⟨a, rfl, h⟩

theorem bind_eq_ok {x : Except ε α} {f : α → Except ε β} {b : β} (h : (x >>= f) = .ok b) :
    ∃ a, x = .ok a ∧ f a = .ok b := by
  cases x with
  | error e => cases h
  | ok a => exact ⟨a, rfl, h⟩

theorem mapError_eq_ok {ε' : Type} {f : ε → ε'} {x : Except ε α} {a : α}
    (h : x.mapError f = .ok a) : x = .ok a := by
  cases x with
  | error e => cases h
  | ok a' =>
    cases h
    rfl

end Except

section Loop

variable {m : Type → Type} [Monad m] {α : Type}

/-- `r` iterations from `i` on; the loop's variables are in `a`. -/
def forFrom (body : Nat → α → m α) : (r i : Nat) → α → m α
  | 0, _, a => pure a
  | r + 1, i, a => do forFrom body r (i + 1) (← body i a)

/-- `for (i = 0; i < n; i++) { body }`. -/
def forRange (n : Nat) (body : Nat → α → m α) (a : α) : m α := forFrom body n 0 a

/-- A counted loop whose body uses that the counter is below the bound. -/
def forFin (n : Nat) (body : Fin n → α → m α) (a : α) : m α :=
  forRange n (fun i a => if h : i < n then body ⟨i, h⟩ a else pure a) a

/-- `for (i = start; i < stop; i += step) { body }`. -/
def forStep (start stop step : Nat) (body : Nat → α → m α) (a : α) : m α :=
  forRange ((stop - start + step - 1) / step) (fun k => body (start + k * step)) a

end Loop

/-! ## Scripts -/

/-- A program on the state `σ` that may throw. -/
abbrev Script (ε σ α : Type) := ExceptT ε (StateM σ) α

namespace Script

variable {ε σ α β : Type}

/-- The result of a script and the state it leaves, also when it throws. -/
def exec (script : Script ε σ α) (s : σ) : Except ε α × σ := script.run.run s

@[simp] theorem exec_pure (a : α) (s : σ) : exec (pure a : Script ε σ α) s = (.ok a, s) := rfl

@[simp] theorem exec_get (s : σ) : exec (get : Script ε σ σ) s = (.ok s, s) := rfl

@[simp] theorem exec_set (s' s : σ) : exec (set s' : Script ε σ PUnit) s = (.ok ⟨⟩, s') := rfl

@[simp] theorem exec_modify (f : σ → σ) (s : σ) :
    exec (modify f : Script ε σ PUnit) s = (.ok ⟨⟩, f s) := rfl

@[simp] theorem exec_ofExcept (r : Except ε α) (s : σ) :
    exec (liftExcept r : Script ε σ α) s = (r, s) := by
  cases r <;> rfl

theorem exec_bind (script : Script ε σ α) (f : α → Script ε σ β) (s : σ) :
    exec (script >>= f) s =
      match exec script s with
      | (.ok a, s') => exec (f a) s'
      | (.error e, s') => (.error e, s') := by
  simp only [exec, ExceptT.run_bind, StateT.run_bind]
  cases h : script.run.run s with
  | mk r s' => cases r <;> rfl

theorem exec_bind_ok {script : Script ε σ α} {s s' : σ} {a : α} (h : exec script s = (.ok a, s'))
    (f : α → Script ε σ β) : exec (script >>= f) s = exec (f a) s' := by
  rw [exec_bind, h]

theorem exec_bind_error {script : Script ε σ α} {s s' : σ} {e : ε}
    (h : exec script s = (.error e, s')) (f : α → Script ε σ β) :
    exec (script >>= f) s = (.error e, s') := by
  rw [exec_bind, h]

/-- A script that ends regularly has ended regularly at every step. -/
theorem exec_bind_eq_ok {script : Script ε σ α} {f : α → Script ε σ β} {s s' : σ} {b : β}
    (h : exec (script >>= f) s = (.ok b, s')) :
    ∃ a s₁, exec script s = (.ok a, s₁) ∧ exec (f a) s₁ = (.ok b, s') := by
  rw [exec_bind] at h
  cases hrun : exec script s with
  | mk r s₁ =>
    rw [hrun] at h
    cases r with
    | error e => cases h
    | ok a => exact ⟨a, s₁, rfl, h⟩

end Script

/-! ## Invariant rules -/

section Rules

variable {ε σ α : Type} {n : Nat}

private theorem forFrom_except {body : Nat → α → Except ε α} {Inv : Nat → α → Prop}
    (hstep : ∀ i a, i < n → Inv i a → ∃ a', body i a = .ok a' ∧ Inv (i + 1) a') :
    ∀ r i a, i + r = n → Inv i a → ∃ a', forFrom body r i a = .ok a' ∧ Inv n a' := by
  intro r
  induction r with
  | zero =>
    intro i a hi hinv
    obtain rfl : i = n := hi
    exact ⟨a, rfl, hinv⟩
  | succ r ih =>
    intro i a hi hinv
    obtain ⟨a₁, hbody, hinv₁⟩ := hstep i a (by omega) hinv
    obtain ⟨a₂, hrest, hinv₂⟩ := ih (i + 1) a₁ (by omega) hinv₁
    refine ⟨a₂, ?_, hinv₂⟩
    simp only [forFrom, hbody, Except.ok_bind]
    exact hrest

/-- A loop in `Except` whose body keeps the invariant and does not throw. -/
theorem forRange_except {body : Nat → α → Except ε α} (Inv : Nat → α → Prop) {a : α}
    (hstep : ∀ i a, i < n → Inv i a → ∃ a', body i a = .ok a' ∧ Inv (i + 1) a')
    (hinit : Inv 0 a) : ∃ a', forRange n body a = .ok a' ∧ Inv n a' :=
  forFrom_except hstep n 0 a (Nat.zero_add n) hinit

/-- A loop in `Except` whose variables are known at every iteration. -/
theorem forRange_eq {body : Nat → α → Except ε α} (state : Nat → α)
    (hstep : ∀ i, i < n → body i (state i) = .ok (state (i + 1))) :
    forRange n body (state 0) = .ok (state n) := by
  let Inv : Nat → α → Prop := fun i a => a = state i
  have hinv : ∀ i a, i < n → Inv i a → ∃ a', body i a = .ok a' ∧ Inv (i + 1) a' := by
    rintro i a hi rfl
    exact ⟨state (i + 1), hstep i hi, rfl⟩
  obtain ⟨a, hrun, rfl⟩ := forRange_except Inv hinv rfl
  exact hrun

/-- A loop over the indices of a list that appends a piece for each element. -/
theorem forRange_append {β : Type} {xs : List α} {body : Nat → List β → Except ε (List β)}
    (piece : α → List β) (out : List β)
    (hstep : ∀ i out, (hi : i < xs.length) → body i out = .ok (out ++ piece xs[i])) :
    forRange xs.length body out = .ok (out ++ xs.flatMap piece) := by
  let Inv : Nat → List β → Prop := fun i out' => out' = out ++ (xs.take i).flatMap piece
  have hinit : Inv 0 out := by simp [Inv]
  obtain ⟨out', hrun, hout⟩ := forRange_except Inv (fun i out' hi hinv => by
    refine ⟨_, hstep i out' hi, ?_⟩
    simp only [Inv] at hinv ⊢
    rw [hinv, List.take_succ_eq_append_getElem hi, List.flatMap_append, List.append_assoc,
      List.flatMap_singleton]) hinit
  rw [hrun, hout, List.take_length]

/-- A loop in `Except` that returns, though its body may throw. -/
theorem forRange_ok {body : Nat → α → Except ε α} (Inv : Nat → α → Prop) {a a' : α}
    (hstep : ∀ i a a', i < n → Inv i a → body i a = .ok a' → Inv (i + 1) a') (hinit : Inv 0 a)
    (hrun : forRange n body a = .ok a') : Inv n a' := by
  have hfrom : ∀ r i a, i + r = n → Inv i a → forFrom body r i a = .ok a' → Inv n a' := by
    intro r
    induction r with
    | zero =>
      intro i a hi hinv h
      obtain rfl : i = n := hi
      cases h
      exact hinv
    | succ r ih =>
      intro i a hi hinv h
      obtain ⟨a₁, hbody, hrest⟩ := Except.bind_eq_ok h
      exact ih (i + 1) a₁ (by omega) (hstep i a a₁ (by omega) hinv hbody) hrest
  exact hfrom n 0 a (Nat.zero_add n) hinit hrun

/-- What a loop in `Except` throws, its body throws. -/
theorem forRange_error {body : Nat → α → Except ε α} {P : ε → Prop} {e : ε} {a : α}
    (hbody : ∀ i a e, i < n → body i a = .error e → P e) (h : forRange n body a = .error e) :
    P e := by
  have hfrom : ∀ r i a, i + r = n → forFrom body r i a = .error e → P e := by
    intro r
    induction r with
    | zero =>
      intro i a _ h
      cases h
    | succ r ih =>
      intro i a hi h
      rw [forFrom] at h
      cases hfirst : body i a with
      | ok a' =>
        rw [hfirst] at h
        exact ih (i + 1) a' (by omega) h
      | error e' =>
        rw [hfirst] at h
        cases h
        exact hbody i a _ (by omega) hfirst
  exact hfrom n 0 a (Nat.zero_add n) h

private theorem forFrom_script {body : Nat → α → Script ε σ α} {Inv : Nat → α → σ → Prop}
    (hstep : ∀ i a s, i < n → Inv i a s →
      ∃ a' s', (body i a).exec s = (.ok a', s') ∧ Inv (i + 1) a' s') :
    ∀ r i a s, i + r = n → Inv i a s →
      ∃ a' s', (forFrom body r i a : Script ε σ α).exec s = (.ok a', s') ∧ Inv n a' s' := by
  intro r
  induction r with
  | zero =>
    intro i a s hi hinv
    obtain rfl : i = n := hi
    exact ⟨a, s, rfl, hinv⟩
  | succ r ih =>
    intro i a s hi hinv
    obtain ⟨a₁, s₁, hbody, hinv₁⟩ := hstep i a s (by omega) hinv
    obtain ⟨a₂, s₂, hrest, hinv₂⟩ := ih (i + 1) a₁ s₁ (by omega) hinv₁
    refine ⟨a₂, s₂, ?_, hinv₂⟩
    rw [forFrom, Script.exec_bind_ok hbody]
    exact hrest

/-- A loop in a script whose body keeps the invariant and does not throw. -/
theorem forRange_script {body : Nat → α → Script ε σ α} (Inv : Nat → α → σ → Prop) {a : α} {s : σ}
    (hstep : ∀ i a s, i < n → Inv i a s →
      ∃ a' s', (body i a).exec s = (.ok a', s') ∧ Inv (i + 1) a' s')
    (hinit : Inv 0 a s) :
    ∃ a' s', (forRange n body a : Script ε σ α).exec s = (.ok a', s') ∧ Inv n a' s' :=
  forFrom_script hstep n 0 a s (Nat.zero_add n) hinit

/-- A loop in a script whose variables and state are known at every iteration. -/
theorem forRange_exec {body : Nat → α → Script ε σ α} (a : Nat → α) (s : Nat → σ)
    (hstep : ∀ i, i < n → (body i (a i)).exec (s i) = (.ok (a (i + 1)), s (i + 1))) :
    (forRange n body (a 0) : Script ε σ α).exec (s 0) = (.ok (a n), s n) := by
  let Inv : Nat → α → σ → Prop := fun i a' s' => a' = a i ∧ s' = s i
  have hinv : ∀ i a' s', i < n → Inv i a' s' →
      ∃ a'' s'', (body i a').exec s' = (.ok a'', s'') ∧ Inv (i + 1) a'' s'' := by
    rintro i a' s' hi ⟨rfl, rfl⟩
    exact ⟨_, _, hstep i hi, rfl, rfl⟩
  obtain ⟨a', s', hrun, rfl, rfl⟩ := forRange_script Inv hinv ⟨rfl, rfl⟩
  exact hrun

theorem forFin_script {body : Fin n → α → Script ε σ α} (Inv : Nat → α → σ → Prop) {a : α} {s : σ}
    (hstep : ∀ (i : Fin n) a s, Inv i a s →
      ∃ a' s', (body i a).exec s = (.ok a', s') ∧ Inv (i + 1) a' s')
    (hinit : Inv 0 a s) :
    ∃ a' s', (forFin n body a : Script ε σ α).exec s = (.ok a', s') ∧ Inv n a' s' := by
  refine forRange_script Inv (fun i a s hi hinv => ?_) hinit
  rw [dif_pos hi]
  exact hstep ⟨i, hi⟩ a s hinv

end Rules
