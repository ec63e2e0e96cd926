import Mathlib.Data.List.Nodup

/-!
# Lists of entries with distinct keys

A linked list whose nodes are told apart by their keys, such as their addresses.
-/

namespace Keyed

section Distinct

variable {κ α : Type*} (key : α → κ)

def Distinct (l : List α) : Prop := (l.map key).Nodup

variable {key}

theorem Distinct.eq_of_key {l : List α} (h : Distinct key l) {e e' : α} (he : e ∈ l) (he' : e' ∈ l)
    (hkey : key e = key e') : e = e' := List.inj_on_of_nodup_map h he he' hkey

theorem distinct_cons {e : α} {l : List α} (h : Distinct key l) (hnew : ∀ x ∈ l, key x ≠ key e) :
    Distinct key (e :: l) := by
  unfold Distinct
  rw [List.map_cons, List.nodup_cons]
  refine ⟨fun hmem => ?_, h⟩
  obtain ⟨x, hx, heq⟩ := List.mem_map.mp hmem
  exact hnew x hx heq

theorem distinct_sublist {l l' : List α} (h : Distinct key l) (hsub : l'.Sublist l) : Distinct key l' :=
  List.Nodup.sublist (hsub.map key) h

end Distinct

variable {κ α : Type*} [DecidableEq κ] (key : α → κ)

/-- The first entry with the key, and the list without it. -/
def unlink (k : κ) : List α → Option α × List α
  | [] => (none, [])
  | e :: l => if key e = k then (some e, l) else ((unlink k l).1, e :: (unlink k l).2)

/-- What is written through the key. -/
def modify (k : κ) (f : α → α) (l : List α) : List α := l.map fun e => if key e = k then f e else e

variable {key}

theorem unlink_of_absent (k : κ) (l : List α) (h : ∀ e ∈ l, key e ≠ k) : unlink key k l = (none, l) := by
  induction l with
  | nil => rfl
  | cons e l ih =>
    unfold unlink
    rw [if_neg (h e List.mem_cons_self), ih fun x hx => h x (List.mem_cons_of_mem _ hx)]

theorem unlink_of_mem {l : List α} {e : α} (h : Distinct key l) (he : e ∈ l) :
    (unlink key (key e) l).1 = some e ∧ (unlink key (key e) l).2.Sublist l ∧
      ∀ x, x ∈ (unlink key (key e) l).2 ↔ x ∈ l ∧ x ≠ e := by
  induction l with
  | nil => cases he
  | cons a l ih =>
    unfold Distinct at h
    rw [List.map_cons, List.nodup_cons] at h
    obtain ⟨hnew, hrest⟩ := h
    unfold unlink
    by_cases hkey : key a = key e
    · have hnot : e ∉ l := fun hmem => hnew (hkey ▸ List.mem_map_of_mem hmem)
      obtain rfl : a = e := (List.mem_cons.mp he).elim Eq.symm fun hmem => absurd hmem hnot
      rw [if_pos rfl]
      refine ⟨rfl, List.sublist_cons_self a l, fun x => ?_⟩
      constructor
      · intro hx
        exact ⟨List.mem_cons_of_mem _ hx, fun heq => hnot (heq ▸ hx)⟩
      · rintro ⟨hx, hne⟩
        exact (List.mem_cons.mp hx).resolve_left hne
    · rw [if_neg hkey]
      have hmem : e ∈ l := (List.mem_cons.mp he).resolve_left fun heq => hkey (heq ▸ rfl)
      obtain ⟨hfound, hsub, hiff⟩ := ih hrest hmem
      refine ⟨hfound, hsub.cons_cons a, fun x => ?_⟩
      rw [List.mem_cons, List.mem_cons, hiff]
      constructor
      · rintro (rfl | ⟨hx, hne⟩)
        · exact ⟨Or.inl rfl, fun heq => hkey (heq ▸ rfl)⟩
        · exact ⟨Or.inr hx, hne⟩
      · rintro ⟨rfl | hx, hne⟩
        · exact Or.inl rfl
        · exact Or.inr ⟨hx, hne⟩

theorem modify_head (e : α) (l : List α) (f : α → α) (hnew : ∀ x ∈ l, key x ≠ key e) :
    modify key (key e) f (e :: l) = f e :: l := by
  have hsame : modify key (key e) f l = l.map id :=
    List.map_congr_left fun x hx => if_neg (hnew x hx)
  rw [List.map_id] at hsame
  unfold modify at hsame ⊢
  rw [List.map_cons, if_pos rfl, hsame]

end Keyed
