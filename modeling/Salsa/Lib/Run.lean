import Mathlib.Data.List.Basic

/-!
# Runs of a fallible step

A step is `none` where the program has no defined outcome.
-/

namespace Run

variable {σ α : Type*} (step : σ → α → Option σ)

def run : σ → List α → Option σ
  | s, [] => some s
  | s, a :: as => (step s a).bind fun s' => run s' as

/-- `ok` holds of every step that the run takes. -/
def AllSteps (ok : σ → α → Prop) : σ → List α → Prop
  | _, [] => True
  | s, a :: as => ok s a ∧ ∀ s', step s a = some s' → AllSteps ok s' as

/-- Every step is defined, and `good` holds of every state that the run reaches. -/
def AllStates (good : σ → Prop) : σ → List α → Prop
  | s, [] => good s
  | s, a :: as => good s ∧ ∃ s', step s a = some s' ∧ AllStates good s' as

/-- `good` holds of every state that the run reaches; it ends where a step is not defined. -/
def AllReached (good : σ → Prop) : σ → List α → Prop
  | s, [] => good s
  | s, a :: as => good s ∧ ∀ s', step s a = some s' → AllReached good s' as

@[simp] theorem run_nil (s : σ) : run step s ([] : List α) = some s := rfl

@[simp] theorem run_cons (s : σ) (a : α) (as : List α) :
    run step s (a :: as) = (step s a).bind fun s' => run step s' as := rfl

theorem run_append (s : σ) (as bs : List α) :
    run step s (as ++ bs) = (run step s as).bind fun s' => run step s' bs := by
  induction as generalizing s with
  | nil => rfl
  | cons a as ih =>
    rw [List.cons_append, run_cons, run_cons]
    cases step s a with
    | none => rfl
    | some s' => exact ih s'

theorem allStates_head (good : σ → Prop) (s : σ) (as : List α) (h : AllStates step good s as) :
    good s := by
  cases as with
  | nil => exact h
  | cons a as => exact h.1

theorem allStates_last (good : σ → Prop) (s t : σ) (as : List α) (h : AllStates step good s as)
    (hrun : run step s as = some t) : good t := by
  induction as generalizing s with
  | nil => exact Option.some.inj hrun ▸ h
  | cons a as ih =>
    obtain ⟨-, s', hs', hrest⟩ := h
    rw [run_cons, hs'] at hrun
    exact ih s' hrest hrun

variable {step}

theorem allSteps_cons_iff (ok : σ → α → Prop) (s s' : σ) (a : α) (as : List α)
    (h : step s a = some s') : AllSteps step ok s (a :: as) ↔ ok s a ∧ AllSteps step ok s' as := by
  simp only [AllSteps, h, Option.some.injEq, forall_eq']

theorem allSteps_of_forall (ok : σ → α → Prop) (s : σ) (as : List α) (h : ∀ s a, ok s a) :
    AllSteps step ok s as := by
  induction as generalizing s with
  | nil => trivial
  | cons a as ih => exact ⟨h s a, fun s' _ => ih s'⟩

theorem allSteps_of_mem (ok : α → Prop) (s : σ) (as : List α) (h : ∀ a ∈ as, ok a) :
    AllSteps step (fun _ a => ok a) s as := by
  induction as generalizing s with
  | nil => trivial
  | cons a as ih =>
    exact ⟨h a List.mem_cons_self, fun s' _ => ih s' fun b hb => h b (List.mem_cons_of_mem _ hb)⟩

theorem allSteps_mono (ok ok' : σ → α → Prop) (s : σ) (as : List α)
    (h : ∀ s, ∀ a ∈ as, ok s a → ok' s a) (hok : AllSteps step ok s as) : AllSteps step ok' s as := by
  induction as generalizing s with
  | nil => trivial
  | cons a as ih =>
    refine ⟨h s a List.mem_cons_self hok.1, fun s' hs' => ?_⟩
    exact ih s' (fun t b hb => h t b (List.mem_cons_of_mem _ hb)) (hok.2 s' hs')

/-- What a step with `ok` preserves, a run of such steps preserves. -/
theorem run_invariant (inv : σ → Prop) (ok : σ → α → Prop)
    (hstep : ∀ s a s', inv s → ok s a → step s a = some s' → inv s') (s t : σ) (as : List α)
    (hs : inv s) (hok : AllSteps step ok s as) (hrun : run step s as = some t) : inv t := by
  induction as generalizing s with
  | nil => simp only [run_nil, Option.some.injEq] at hrun; exact hrun ▸ hs
  | cons a as ih =>
    simp only [run_cons, Option.bind_eq_some_iff] at hrun
    obtain ⟨s', hs', hrun⟩ := hrun
    exact ih s' (hstep s a s' hs hok.1 hs') (hok.2 s' hs') hrun

theorem allSteps_and (ok ok' : σ → α → Prop) (s : σ) (as : List α) (h : AllSteps step ok s as)
    (h' : AllSteps step ok' s as) : AllSteps step (fun s a => ok s a ∧ ok' s a) s as := by
  induction as generalizing s with
  | nil => trivial
  | cons a as ih =>
    exact ⟨⟨h.1, h'.1⟩, fun s' hs' => ih s' (h.2 s' hs') (h'.2 s' hs')⟩

/-- What holds of each step from a state with the invariant holds all along. -/
theorem allSteps_of_inv (inv : σ → Prop) (ok ok' : σ → α → Prop)
    (hstep : ∀ s a s', inv s → ok s a → step s a = some s' → inv s')
    (hok : ∀ s a, inv s → ok s a → ok' s a) (s : σ) (as : List α) (hs : inv s)
    (h : AllSteps step ok s as) : AllSteps step ok' s as := by
  induction as generalizing s with
  | nil => trivial
  | cons a as ih =>
    exact ⟨hok s a hs h.1, fun s' hs' => ih s' (hstep s a s' hs h.1 hs') (h.2 s' hs')⟩

/-- A run is good all the way if its steps keep an invariant that is. -/
theorem allStates_of_allSteps (inv good : σ → Prop) (ok : σ → α → Prop)
    (hgood : ∀ s, inv s → good s)
    (hok : ∀ s a, inv s → ok s a → ∃ s', step s a = some s' ∧ inv s')
    (s : σ) (as : List α) (hs : inv s) (h : AllSteps step ok s as) : AllStates step good s as := by
  induction as generalizing s with
  | nil => exact hgood s hs
  | cons a as ih =>
    obtain ⟨t, ht, hinv⟩ := hok s a hs h.1
    exact ⟨hgood s hs, t, ht, ih t hinv (h.2 t ht)⟩

/-- A run of allowed steps is good all the way when they all meet `ok`, and a step that breaks `ok`
shows at once. -/
theorem allStates_iff_allSteps (inv good : σ → Prop) (allowed ok : σ → α → Prop)
    (hgood : ∀ s, inv s → good s)
    (hok : ∀ s a, inv s → allowed s a → ok s a → ∃ s', step s a = some s' ∧ inv s')
    (hbad : ∀ s a s', inv s → allowed s a → ¬ ok s a → step s a = some s' → ¬ good s')
    (s : σ) (as : List α) (hs : inv s) (hallowed : AllSteps step allowed s as) :
    AllStates step good s as ↔ AllSteps step ok s as := by
  constructor
  · intro h
    induction as generalizing s with
    | nil => trivial
    | cons a as ih =>
      obtain ⟨-, s', hs', hrest⟩ := h
      have ha : ok s a := by
        by_contra hna
        exact hbad s a s' hs hallowed.1 hna hs' (allStates_head step good s' as hrest)
      obtain ⟨t, ht, hinv⟩ := hok s a hs hallowed.1 ha
      obtain rfl : s' = t := Option.some.inj (hs'.symm.trans ht)
      refine ⟨ha, fun u hu => ?_⟩
      obtain rfl : s' = u := Option.some.inj (hs'.symm.trans hu)
      exact ih s' hinv (hallowed.2 s' hs') hrest
  · intro h
    apply allStates_of_allSteps inv good _ hgood _ s as hs (allSteps_and _ _ s as hallowed h)
    intro s a hs ha
    exact hok s a hs ha.1 ha.2

theorem allReached_head (good : σ → Prop) (s : σ) (as : List α) (h : AllReached step good s as) : good s := by
  cases as with
  | nil => exact h
  | cons a as => exact h.1

/-- What every step preserves holds as far as the run goes. -/
theorem allReached_of_inv (inv good : σ → Prop) (hgood : ∀ s, inv s → good s)
    (hstep : ∀ s a s', inv s → step s a = some s' → inv s') (s : σ) (as : List α) (hs : inv s) :
    AllReached step good s as := by
  induction as generalizing s with
  | nil => exact hgood s hs
  | cons a as ih => exact ⟨hgood s hs, fun s' hs' => ih s' (hstep s a s' hs hs')⟩

/-- A run is good as far as it goes when the steps that are defined meet `ok`, where these are the ones
after which it is good. -/
theorem allReached_iff_allSteps (inv good : σ → Prop) (ok : σ → α → Prop) (hgood : ∀ s, inv s → good s)
    (hstep : ∀ s a s', inv s → step s a = some s' → (good s' ↔ ok s a))
    (hinv : ∀ s a s', inv s → step s a = some s' → good s' → inv s') (s : σ) (as : List α) (hs : inv s) :
    AllReached step good s as ↔ AllSteps step (fun s a => (step s a).isSome → ok s a) s as := by
  induction as generalizing s with
  | nil => exact iff_of_true (hgood s hs) trivial
  | cons a as ih =>
    constructor
    · rintro ⟨-, hrest⟩
      refine ⟨fun hsome => ?_, fun s' hs' => ?_⟩
      · obtain ⟨s', hs'⟩ := Option.isSome_iff_exists.mp hsome
        exact (hstep s a s' hs hs').mp (allReached_head good s' as (hrest s' hs'))
      · have hgood' := allReached_head good s' as (hrest s' hs')
        exact (ih s' (hinv s a s' hs hs' hgood')).mp (hrest s' hs')
    · rintro ⟨hok, hrest⟩
      refine ⟨hgood s hs, fun s' hs' => ?_⟩
      have hgood' := (hstep s a s' hs hs').mpr (hok (by rw [hs']; rfl))
      exact (ih s' (hinv s a s' hs hs' hgood')).mpr (hrest s' hs')

end Run
