import Mathlib.Data.List.Basic

/-!
# Two machines in lockstep

Two machines that take the same calls. Both are undefined for a call, or both return something and go on.
-/

namespace Lockstep

variable {σ τ α ρ : Type*}

/-- The outcomes of one call, of which `matched` is demanded where there are any. -/
def Both (matched : ρ × σ → ρ × τ → Prop) : Option (ρ × σ) → Option (ρ × τ) → Prop
  | none, none => True
  | some r, some r' => matched r r'
  | _, _ => False

/-- All along a list of calls the states are related and the outcomes match, until the second machine gets out of
the states in which it is up. -/
def Along (call : σ → α → Option (ρ × σ)) (call' : τ → α → Option (ρ × τ)) (up : τ → Prop) (related : σ → τ → Prop)
    (matched : σ → τ → α → ρ × σ → ρ × τ → Prop) : σ → τ → List α → Prop
  | s, t, [] => related s t
  | s, t, a :: as =>
    related s t ∧
      Both (fun r r' => up r'.2 → matched s t a r r' ∧ Along call call' up related matched r.2 r'.2 as)
        (call s a) (call' t a)

/-- It is enough that each call keeps the relation. -/
theorem along_of_step (call : σ → α → Option (ρ × σ)) (call' : τ → α → Option (ρ × τ)) (up : τ → Prop)
    (related : σ → τ → Prop) (matched : σ → τ → α → ρ × σ → ρ × τ → Prop)
    (hstep : ∀ s t a, related s t →
      Both (fun r r' => up r'.2 → matched s t a r r' ∧ related r.2 r'.2) (call s a) (call' t a))
    (s : σ) (t : τ) (as : List α) (h : related s t) : Along call call' up related matched s t as := by
  induction as generalizing s t with
  | nil => exact h
  | cons a as ih =>
    refine ⟨h, ?_⟩
    have hboth := hstep s t a h
    cases hcall : call s a with
    | none =>
      rw [hcall] at hboth
      cases hcall' : call' t a with
      | none => trivial
      | some r' =>
        rw [hcall'] at hboth
        exact hboth.elim
    | some r =>
      rw [hcall] at hboth
      cases hcall' : call' t a with
      | none =>
        rw [hcall'] at hboth
        exact hboth.elim
      | some r' =>
        rw [hcall'] at hboth
        intro hup
        obtain ⟨hmatched, hrelated⟩ := hboth hup
        exact ⟨hmatched, ih r.2 r'.2 hrelated⟩

end Lockstep
