import Mathlib.Tactic.Common

/-!
# Programs over a state

A program that stops where the language gives it no meaning, and what holds after it.
-/

abbrev Prog (σ α : Type) := StateT σ Option α

namespace Prog

variable {σ τ α β : Type}

/-- `m` ends in `s`, and `post` holds of what it returns and leaves. -/
def Wp (m : Prog σ α) (s : σ) (post : α → σ → Prop) : Prop := ∃ a s', m s = some (a, s') ∧ post a s'

theorem wp_pure (a : α) (s : σ) (post : α → σ → Prop) (h : post a s) : Wp (pure a) s post := ⟨a, s, rfl, h⟩

theorem wp_bind (m : Prog σ α) (f : α → Prog σ β) (s : σ) (post : β → σ → Prop)
    (h : Wp m s fun a s' => Wp (f a) s' post) : Wp (m >>= f) s post := by
  obtain ⟨a, s', hm, b, s'', hf, hpost⟩ := h
  refine ⟨b, s'', ?_, hpost⟩
  show (m s).bind (fun r => f r.1 r.2) = some (b, s'')
  rw [hm]
  exact hf

theorem Wp.mono {m : Prog σ α} {s : σ} {post post' : α → σ → Prop} (h : Wp m s post)
    (hpost : ∀ a s', post a s' → post' a s') : Wp m s post' := by
  obtain ⟨a, s', hm, h⟩ := h
  exact ⟨a, s', hm, hpost a s' h⟩

theorem wp_ite {c : Prop} [Decidable c] (m m' : Prog σ α) (s : σ) (post : α → σ → Prop) (ht : c → Wp m s post)
    (hf : ¬ c → Wp m' s post) : Wp (if c then m else m') s post := by
  split
  · exact ht ‹_›
  · exact hf ‹_›

theorem wp_get (f : σ → Prog σ β) (s : σ) (post : β → σ → Prop) (h : Wp (f s) s post) : Wp (get >>= f) s post :=
  wp_bind _ f s post ⟨s, s, rfl, h⟩

theorem wp_modify (g : σ → σ) (s : σ) (post : Unit → σ → Prop) (h : post () (g s)) :
    Wp (modify g : Prog σ Unit) s post := ⟨(), g s, rfl, h⟩

theorem Wp.unique {m : Prog σ α} {s s' : σ} {a : α} {post : α → σ → Prop} (h : Wp m s post)
    (hm : m s = some (a, s')) : post a s' := by
  obtain ⟨b, t, hm', hpost⟩ := h
  rw [hm] at hm'
  obtain ⟨rfl, rfl⟩ := Prod.mk.inj (Option.some.inj hm')
  exact hpost

theorem bind_eq_some (m : Prog σ α) (f : α → Prog σ β) (s s'' : σ) (b : β) (h : (m >>= f) s = some (b, s'')) :
    ∃ a s', m s = some (a, s') ∧ f a s' = some (b, s'') := by
  have h : (m s).bind (fun r => f r.1 r.2) = some (b, s'') := h
  obtain ⟨⟨a, s'⟩, hm, hf⟩ := Option.bind_eq_some_iff.mp h
  exact ⟨a, s', hm, hf⟩

/-- A program over a part of the state. -/
def on (get : σ → τ) (set : τ → σ → σ) (m : Prog τ α) : Prog σ α :=
  fun s => (m (get s)).map fun r => (r.1, set r.2 s)

theorem wp_on (get : σ → τ) (set : τ → σ → σ) (m : Prog τ α) (s : σ) (post : α → σ → Prop)
    (h : Wp m (get s) fun a t => post a (set t s)) : Wp (on get set m) s post := by
  obtain ⟨a, t, hm, hpost⟩ := h
  refine ⟨a, set t s, ?_, hpost⟩
  unfold on
  rw [hm]
  rfl

end Prog
