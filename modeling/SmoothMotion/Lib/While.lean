-- SUMMARY: Loops that are left from inside their body, run under a ranking function, and the rules for what such a loop returns.
import Mathlib.Logic.Relation
import SmoothMotion.Lib.Loop

/-!
# Loops that are left from inside

A pass through the body of `while (true)` goes on with new variables, leaves the
loop with a result, or throws. A rank that drops with every pass that goes on
bounds the number of passes, so the loop is a total function; its value does not
depend on the rank.
-/

/-- How a pass through the body of a loop ends. -/
inductive Pass (σ ρ : Type) where
  | again (s : σ)
  | leave (r : ρ)
deriving DecidableEq

section While

variable {ε σ ρ : Type} {body : σ → Except ε (Pass σ ρ)} {rank : σ → Nat}

/-- At most `fuel` passes; `none` when the loop has not been left by then. -/
def passes (body : σ → Except ε (Pass σ ρ)) : Nat → σ → Option (Except ε ρ)
  | 0, _ => none
  | fuel + 1, s =>
    match body s with
    | .error e => some (.error e)
    | .ok (.leave r) => some (.ok r)
    | .ok (.again s') => passes body fuel s'

/-- Every pass that goes on lowers the rank. -/
def Ranks (body : σ → Except ε (Pass σ ρ)) (rank : σ → Nat) : Prop :=
  ∀ s s', body s = .ok (.again s') → rank s' < rank s

theorem passes_isSome (hrank : Ranks body rank) {fuel : Nat} :
    ∀ {s}, rank s < fuel → (passes body fuel s).isSome := by
  induction fuel with
  | zero =>
    intro s hs
    omega
  | succ fuel ih =>
    intro s hs
    unfold passes
    split
    · rfl
    · rfl
    · rename_i s' hbody
      have hdrop := hrank s s' hbody
      exact ih (by omega)

/-- More fuel than needed changes nothing. -/
theorem passes_mono {fuel fuel' : Nat} (hle : fuel ≤ fuel') {r : Except ε ρ} :
    ∀ {s}, passes body fuel s = some r → passes body fuel' s = some r := by
  induction fuel generalizing fuel' with
  | zero =>
    intro s h
    cases h
  | succ fuel ih =>
    intro s h
    obtain ⟨fuel', rfl⟩ : ∃ k, fuel' = k + 1 := ⟨fuel' - 1, by omega⟩
    unfold passes at h ⊢
    split at h
    · exact h
    · exact h
    · exact ih (by omega) h

/-- `while (true) { body }`. -/
def whileTrue (body : σ → Except ε (Pass σ ρ)) (rank : σ → Nat) (hrank : Ranks body rank) (s : σ) :
    Except ε ρ :=
  (passes body (rank s + 1) s).get (passes_isSome hrank (Nat.lt_succ_self _))

theorem passes_eq_whileTrue (hrank : Ranks body rank) (s : σ) :
    passes body (rank s + 1) s = some (whileTrue body rank hrank s) :=
  (Option.some_get _).symm

/-! ## One pass -/

theorem whileTrue_leave {hrank : Ranks body rank} {s : σ} {r : ρ} (h : body s = .ok (.leave r)) :
    whileTrue body rank hrank s = .ok r := by
  have hrun := passes_eq_whileTrue hrank s
  simpa [passes, h] using hrun.symm

theorem whileTrue_error {hrank : Ranks body rank} {s : σ} {e : ε} (h : body s = .error e) :
    whileTrue body rank hrank s = .error e := by
  have hrun := passes_eq_whileTrue hrank s
  simpa [passes, h] using hrun.symm

theorem whileTrue_again {hrank : Ranks body rank} {s s' : σ} (h : body s = .ok (.again s')) :
    whileTrue body rank hrank s = whileTrue body rank hrank s' := by
  have hdrop := hrank s s' h
  have hfirst : passes body (rank s + 1) s = passes body (rank s) s' := by
    rw [passes, h]
  have hrest := passes_mono (by omega : rank s' + 1 ≤ rank s) (passes_eq_whileTrue hrank s')
  have hrun := passes_eq_whileTrue hrank s
  rw [hfirst, hrest] at hrun
  exact (Option.some.inj hrun).symm

/-! ## Rules -/

/-- The loop has come from `s` to `s'` without being left. -/
def Passes (body : σ → Except ε (Pass σ ρ)) : σ → σ → Prop :=
  Relation.ReflTransGen fun s s' => body s = .ok (.again s')

/-- What every pass keeps, holds wherever the loop comes. -/
theorem Passes.invariant {Inv : σ → Prop}
    (hstep : ∀ s s', Inv s → body s = .ok (.again s') → Inv s') {s s' : σ}
    (h : Passes body s s') (hinit : Inv s) : Inv s' := by
  induction h with
  | refl => exact hinit
  | tail _ hlast ih => exact hstep _ _ ih hlast

/-- A loop that returns was left by the pass after some state it came to. -/
theorem whileTrue_eq_ok {hrank : Ranks body rank} {s : σ} {r : ρ}
    (h : whileTrue body rank hrank s = .ok r) :
    ∃ s', Passes body s s' ∧ body s' = .ok (.leave r) := by
  induction hn : rank s using Nat.strongRecOn generalizing s with
  | _ n ih =>
    cases hbody : body s with
    | error e => simp [whileTrue_error hbody] at h
    | ok pass =>
      cases pass with
      | leave r' =>
        rw [whileTrue_leave hbody] at h
        cases h
        exact ⟨s, .refl, hbody⟩
      | again s₁ =>
        rw [whileTrue_again hbody] at h
        obtain ⟨s', hpasses, hleave⟩ := ih (rank s₁) (hn ▸ hrank s s₁ hbody) h rfl
        exact ⟨s', .head hbody hpasses, hleave⟩

/-- A loop whose body does not throw where the invariant holds, returns. -/
theorem whileTrue_total {hrank : Ranks body rank} {Inv : σ → Prop} {Post : ρ → Prop}
    (hstep : ∀ s, Inv s → (∃ s', body s = .ok (.again s') ∧ Inv s') ∨
      ∃ r, body s = .ok (.leave r) ∧ Post r) {s : σ} (hinit : Inv s) :
    ∃ r, whileTrue body rank hrank s = .ok r ∧ Post r := by
  induction hn : rank s using Nat.strongRecOn generalizing s with
  | _ n ih =>
    obtain ⟨s₁, hbody, hinv⟩ | ⟨r, hbody, hpost⟩ := hstep s hinit
    · rw [whileTrue_again hbody]
      exact ih (rank s₁) (hn ▸ hrank s s₁ hbody) hinv rfl
    · exact ⟨r, whileTrue_leave hbody, hpost⟩

end While
