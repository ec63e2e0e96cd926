import Salsa.Lib.Faults

/-!
# Computations with values left open

A set of outcomes for a computation whose variables may hold anything before they are written, and
whose operations may give anything where C does not define the result.
-/

namespace CInt

/-- C leaves the value open, and the computation may go on with any. -/
def Fault.LeavesOpen (fault : Fault) : Prop := fault = .uninitialized ∨ fault = .overflow ∨ fault = .divide

theorem not_leavesOpen_read : ¬ Fault.read.LeavesOpen := by
  rintro (h | h | h) <;> cases h

theorem not_leavesOpen_diverge : ¬ Fault.diverge.LeavesOpen := by
  rintro (h | h | h) <;> cases h

/-- The outcomes that a computation may have. -/
def Possible (α : Type) : Type := C α → Prop

namespace Possible

variable {α β : Type}

/-- The outcome of a computation, or every value where it has none. -/
def of (r : C α) : Possible α := fun r' =>
  (r' = r ∧ ∀ fault, r = .error fault → ¬ fault.LeavesOpen) ∨
    (∃ fault, r = .error fault ∧ fault.LeavesOpen) ∧ ∃ a, r' = .ok a

/-- What a variable may hold that nothing was written to. -/
def any : Possible α := fun r => ∃ a, r = .ok a

instance : Monad Possible where
  pure a := fun r => r = .ok a
  bind s f := fun r => (∃ fault, s (.error fault) ∧ r = .error fault) ∨ ∃ a, s (.ok a) ∧ f a r

instance : MonadLift C Possible := ⟨of⟩

theorem of_ok (a : α) : of (.ok a) = pure a := by
  funext r
  simp [of, pure]

theorem of_error (fault : Fault) (h : ¬ fault.LeavesOpen) (r : C α) : of (.error fault) r ↔ r = .error fault := by
  simp [of, h]

theorem lift_eq (r : C α) : (liftM r : Possible α) = of r := rfl

theorem pure_bind (a : α) (f : α → Possible β) : (pure a : Possible α) >>= f = f a := by
  funext r
  simp [bind, pure]

theorem bind_ok_iff (s : Possible α) (f : α → Possible β) (b : β) :
    (s >>= f) (.ok b) ↔ ∃ a, s (.ok a) ∧ f a (.ok b) := by
  simp [bind]

theorem of_ok_bind (a : α) (f : α → Possible β) : of (.ok a) >>= f = f a := by
  rw [of_ok, pure_bind]

theorem of_error_bind {fault : Fault} (h : ¬ fault.LeavesOpen) (f : α → Possible β) :
    of (.error fault) >>= f = of (.error fault) := by
  funext r
  rw [of_error fault h]
  simp [bind, of, h]

/-! ## Faults that no outcome has -/

def Avoids (bad : Fault → Prop) (s : Possible α) : Prop := ∀ fault, bad fault → ¬ s (.error fault)

/-- Those of the faults that a computation does not go on from. -/
def Stops (bad : Fault → Prop) (fault : Fault) : Prop := bad fault ∧ ¬ fault.LeavesOpen

theorem not_stops_overflow (bad : Fault → Prop) : ¬ Stops bad .overflow := fun h => h.2 (Or.inr (Or.inl rfl))

theorem not_stops_divide (bad : Fault → Prop) : ¬ Stops bad .divide := fun h => h.2 (Or.inr (Or.inr rfl))

section Rules

variable {bad : Fault → Prop}

theorem avoids_pure (a : α) : (pure a : Possible α).Avoids bad := by
  rintro fault - h
  cases h

theorem avoids_of_error {fault : Fault} (h : ¬ bad fault) : (of (.error fault) : Possible α).Avoids bad := by
  rintro fault' hbad (⟨heq, -⟩ | ⟨-, a, heq⟩)
  · cases heq
    exact h hbad
  · cases heq

theorem avoids_any : (any : Possible α).Avoids bad := by
  rintro fault - ⟨a, h⟩
  cases h

theorem avoids_of {r : C α} (h : CInt.Avoids (Stops bad) r) : (of r).Avoids bad := by
  rintro fault hbad (⟨rfl, hclosed⟩ | ⟨-, a, heq⟩)
  · exact h fault ⟨hbad, hclosed fault rfl⟩ rfl
  · cases heq

theorem Avoids.of_stops {r : C α} (h : (of r).Avoids bad) : CInt.Avoids (Stops bad) r := by
  rintro fault ⟨hbad, hclosed⟩ rfl
  exact h fault hbad ((of_error fault hclosed _).mpr rfl)

theorem avoids_read (m : Words) (i : Nat) (h : bad .read → i < m.size) : (of (m.read i)).Avoids bad :=
  avoids_of (CInt.avoids_read m i fun hbad => h hbad.1)

theorem Avoids.bind {s : Possible α} {f : α → Possible β} (hs : s.Avoids bad)
    (hf : ∀ a, s (.ok a) → (f a).Avoids bad) : (s >>= f).Avoids bad := by
  rintro fault hbad (⟨fault', hfault, heq⟩ | ⟨a, ha, h⟩)
  · cases heq
    exact hs fault hbad hfault
  · exact hf a ha fault hbad h

theorem Avoids.head {s : Possible α} {f : α → Possible β} (h : (s >>= f).Avoids bad) : s.Avoids bad :=
  fun fault hbad hs => h fault hbad (Or.inl ⟨fault, hs, rfl⟩)

theorem Avoids.rest {s : Possible α} {f : α → Possible β} (h : (s >>= f).Avoids bad) (a : α) (ha : s (.ok a)) :
    (f a).Avoids bad :=
  fun fault hbad hf => h fault hbad (Or.inr ⟨a, ha, hf⟩)

end Rules

theorem read_outcome (m : Words) (i : Nat) (v : BitVec 32) (h : of (m.read i) (.ok v)) : v = m.word i ∧ i < m.size := by
  by_cases hi : i < m.size
  · rw [m.read_ok i hi, of_ok] at h
    cases h
    exact ⟨rfl, hi⟩
  · rw [m.read_error i hi, of_error _ not_leavesOpen_read] at h
    cases h

/-- Every outcome is a value. -/
def Returns (s : Possible α) : Prop := s.Avoids fun _ => True

/-- The faults that a computation ends with. -/
def Ended (fault : Fault) : Prop := fault ≠ .diverge

theorem not_ended_diverge : ¬ Ended .diverge := fun h => h rfl

theorem returns_of_avoids {s : Possible α} (hends : s.Avoids (· = .diverge)) (h : s.Avoids Ended) : s.Returns := by
  intro fault _
  by_cases hfault : fault = .diverge
  · exact hends fault hfault
  · exact h fault hfault

theorem not_returns_error {fault : Fault} (h : ¬ fault.LeavesOpen) : ¬ (of (.error fault) : Possible α).Returns :=
  fun hreturns => hreturns fault trivial ((of_error fault h _).mpr rfl)

theorem Returns.head {s : Possible α} {f : α → Possible β} (h : (s >>= f).Returns) : s.Returns := Avoids.head h

theorem Returns.rest {s : Possible α} {f : α → Possible β} (h : (s >>= f).Returns) (a : α) (ha : s (.ok a)) :
    (f a).Returns :=
  Avoids.rest h a ha

theorem Returns.read {m : Words} {i : Nat} {f : BitVec 32 → Possible β} (h : (of (m.read i) >>= f).Returns) :
    i < m.size ∧ (f (m.word i)).Returns := by
  by_cases hi : i < m.size
  · rw [m.read_ok i hi, of_ok_bind] at h
    exact ⟨hi, h⟩
  · rw [m.read_error i hi, of_error_bind not_leavesOpen_read] at h
    exact absurd h (not_returns_error not_leavesOpen_read)

theorem Returns.exists_ok [Inhabited α] {r : C α} (h : (of r).Returns) : ∃ a, of r (.ok a) := by
  cases r with
  | ok a => exact ⟨a, by rw [of_ok]; rfl⟩
  | error fault =>
    by_cases hopen : fault.LeavesOpen
    · exact ⟨default, Or.inr ⟨⟨fault, rfl, hopen⟩, default, rfl⟩⟩
    · exact absurd h (not_returns_error hopen)

/-! ## The defined outcome -/

/-- The outcome of `r`, where C defines it, is one of `s` up to `R`. -/
def Covers (R : α → β → Prop) : C α → Possible β → Prop
  | .ok a, s => ∃ b, R a b ∧ s (.ok b)
  | .error fault, s => fault.LeavesOpen ∨ s (.error fault)

theorem covers_of (r : C α) : Covers Eq r (of r) := by
  cases r with
  | ok a => exact ⟨a, rfl, by rw [of_ok]; rfl⟩
  | error fault =>
    by_cases h : fault.LeavesOpen
    · exact Or.inl h
    · exact Or.inr ((of_error fault h _).mpr rfl)

theorem covers_open {R : α → β → Prop} {fault : Fault} (h : fault.LeavesOpen) (s : Possible β) :
    Covers R (.error fault) s := Or.inl h

theorem covers_closed {R : α → β → Prop} {fault : Fault} (h : ¬ fault.LeavesOpen) :
    Covers R (.error fault) (of (.error fault)) := Or.inr ((of_error fault h _).mpr rfl)

theorem covers_pure {R : α → β → Prop} {a : α} {b : β} (h : R a b) : Covers R (pure a) (pure b) := ⟨b, h, rfl⟩

theorem covers_any {γ : Type} {R : α → γ → Prop} {r : C α} {g : β → Possible γ} (b : β) (h : Covers R r (g b)) :
    Covers R r (any >>= g) := by
  cases r with
  | ok a =>
    obtain ⟨c, hac, hc⟩ := h
    exact ⟨c, hac, Or.inr ⟨b, ⟨b, rfl⟩, hc⟩⟩
  | error fault => exact h.imp id fun hc => Or.inr ⟨b, ⟨b, rfl⟩, hc⟩

theorem Covers.bind {α' β' : Type} {R : α → β → Prop} {R' : α' → β' → Prop} {r : C α} {s : Possible β}
    {f : α → C α'} {g : β → Possible β'} (hr : Covers R r s) (hf : ∀ a b, R a b → Covers R' (f a) (g b)) :
    Covers R' (r >>= f) (s >>= g) := by
  cases r with
  | error fault => exact hr.imp id fun h => Or.inl ⟨fault, h, rfl⟩
  | ok a =>
    obtain ⟨b, hab, hb⟩ := hr
    have hrest := hf a b hab
    rw [ok_bind]
    cases hfa : f a with
    | error fault =>
      rw [hfa] at hrest
      exact hrest.imp id fun h => Or.inr ⟨b, hb, h⟩
    | ok a' =>
      rw [hfa] at hrest
      obtain ⟨b', hab', hb'⟩ := hrest
      exact ⟨b', hab', Or.inr ⟨b, hb, hb'⟩⟩

/-- Faults that no outcome has are none of the defined one. -/
theorem Covers.avoids {R : α → β → Prop} {r : C α} {s : Possible β} {bad : Fault → Prop} (h : Covers R r s)
    (hs : s.Avoids bad) : CInt.Avoids (Stops bad) r := by
  rintro fault ⟨hbad, hclosed⟩ rfl
  rcases h with hopen | hfault
  · exact hclosed hopen
  · exact hs fault hbad hfault

end Possible

end CInt
