import Salsa.Hctl.Links

/-!
# The ids along the links

The list in memory stands for the list of ids that the events change: each operation on the links does to the ids what
the operation of the same name does to the list.
-/

namespace Salsa.Hctl.Links

open Ctl Linked

/-! ## The source -/

/-- The loop of `snd_hctl_find_elem`, with fuel. -/
def find_loop (hctl : SndHctl) (id : SndCtlElemId) : Nat → Option Nat → Option (Option Nat)
  | _, none => some none
  | 0, some _ => none
  | n + 1, some elem =>
    (hctl.elems elem).bind fun e => if is_found id e.id then some (some elem) else find_loop hctl id n e.next

def snd_hctl_find_elem (n : Nat) (hctl : SndHctl) (id : SndCtlElemId) : Option (Option Nat) :=
  find_loop hctl id n hctl.first_elem

def snd_hctl_elem_add (cb : Callbacks) (n : Nat) (hctl : SndHctl) (elem : Nat) : Option (Int × SndHctl) := do
  let e ← hctl.elems elem
  let found ← snd_hctl_find_elem n hctl e.id
  if found.isSome then return (-EBUSY, hctl)
  else
    let hctl ← add_elem_list hctl elem
    return (cb.throw_event SND_CTL_EVENT_MASK_ADD e.id, hctl)

/-! ## The contents -/

/-- The id of an element; all zeros where there is none. -/
def SndHctl.id_of (hctl : SndHctl) (elem : Nat) : SndCtlElemId := (hctl.elems elem).elim zeroed_id SndHctlElem.id

def SndHctl.ids (hctl : SndHctl) (l : List Nat) : List SndCtlElemId := l.map hctl.id_of

theorem id_of_congr {s t : SndHctl} {elem : Nat}
    (h : (t.elems elem).map (fun e => (e.id, e.callback)) = (s.elems elem).map fun e => (e.id, e.callback)) :
    t.id_of elem = s.id_of elem := by
  unfold SndHctl.id_of
  cases hs : s.elems elem with
  | none =>
    rw [hs, Option.map_none, Option.map_eq_none_iff] at h
    rw [h]
  | some e =>
    rw [hs, Option.map_some, Option.map_eq_some_iff] at h
    obtain ⟨e', ht, heq⟩ := h
    rw [ht]
    exact (Prod.mk.inj heq).1

theorem SameData.ids {s t : SndHctl} (h : SameData s t) (l : List Nat) : t.ids l = s.ids l :=
  List.map_congr_left fun elem _ => id_of_congr (h elem)

theorem ids_erase (s : SndHctl) (a b : List Nat) (elem : Nat) (h : elem ∉ a) :
    s.ids (a ++ b) = (s.ids (a ++ elem :: b)).eraseIdx ((a ++ elem :: b).idxOf elem) := by
  have hidx : (a ++ elem :: b).idxOf elem = (a.map s.id_of).length := by
    rw [List.idxOf_append_of_notMem h, List.idxOf_cons_self, List.length_map, Nat.add_zero]
  rw [hidx, SndHctl.ids, SndHctl.ids, List.map_append, List.map_append, List.map_cons,
    List.eraseIdx_append_of_length_le (Nat.le_refl _), Nat.sub_self, List.eraseIdx_cons_zero]

/-! ## The operations -/

theorem find_loop_eq (s : SndHctl) (id : SndCtlElemId) (l : List Nat) (before : Option Nat) (n : Nat)
    (h : Segment s.prevs s.nexts before l none) (hn : l.length ≤ n) :
    find_loop s id n l.head? = some (((s.ids l).findIdx? (is_found id)).bind (l[·]?)) := by
  induction l generalizing before n with
  | nil => cases n <;> rfl
  | cons elem l ih =>
    obtain ⟨-, hnext, hrest⟩ := h
    cases n with
    | zero => exact absurd hn (Nat.not_succ_le_zero _)
    | succ n =>
      obtain ⟨e, he, henext⟩ := Option.map_eq_some_iff.mp hnext
      rw [Option.or_none] at henext
      have hid : s.id_of elem = e.id := by simp [SndHctl.id_of, he]
      rw [List.head?_cons, find_loop, he, Option.bind_some, SndHctl.ids, List.map_cons, List.findIdx?_cons, hid]
      by_cases hfound : is_found id e.id = true
      · simp [hfound]
      · have hloop := ih (some elem) n hrest (Nat.le_of_succ_le_succ hn)
        rw [if_neg hfound, if_neg hfound, henext, hloop, SndHctl.ids]
        cases (l.map s.id_of).findIdx? (is_found id) <;> simp

section Refine

variable (s : SndHctl) (l : List Nat) (h : Holds s l)

include h

theorem add_refines (elem : Nat) (e : SndHctlElem) (hfresh : elem ∉ l) (he : s.elems elem = some e) :
    ∃ t, add_elem_list s elem = some t ∧ Holds t (l ++ [elem]) ∧
      t.ids (l ++ [elem]) = Hctl.add_elem_list (s.ids l) e.id := by
  obtain ⟨t, hadd, hholds, hdata, -⟩ := add_spec s l elem h hfresh (by rw [he]; rfl)
  have hid : s.id_of elem = e.id := by simp [SndHctl.id_of, he]
  refine ⟨t, hadd, hholds, ?_⟩
  rw [hdata.ids, SndHctl.ids, List.map_append, List.map_singleton, hid]
  rfl

theorem del_refines (elem : Nat) (helem : elem ∈ l) :
    ∃ t, del_elem_list s elem = some t ∧ Holds t (l.erase elem) ∧
      t.ids (l.erase elem) = Hctl.del_elem_list (s.ids l) (l.idxOf elem) := by
  obtain ⟨a, b, rfl⟩ := List.append_of_mem helem
  obtain ⟨t, hdel, hholds, hdata, -⟩ := del_spec s a b elem h
  have hnotin : elem ∉ a := fun hmem => (List.nodup_middle.mp h.distinct).notMem (List.mem_append_left b hmem)
  rw [List.erase_append_right _ hnotin, List.erase_cons_head]
  exact ⟨t, hdel, hholds, (hdata.ids _).trans (ids_erase s a b elem hnotin)⟩

theorem remove_refines (elem : Nat) (helem : elem ∈ l) :
    ∃ t removal, snd_hctl_elem_remove s elem = some (t, removal) ∧ Holds t (l.erase elem) ∧
      t.ids (l.erase elem) = Hctl.snd_hctl_elem_remove (s.ids l) (l.idxOf elem) := by
  obtain ⟨a, b, rfl⟩ := List.append_of_mem helem
  obtain ⟨t, e, -, hremove, hholds, -, hdata, -⟩ := remove_spec s a b elem h
  have hnotin := (List.nodup_middle.mp h.distinct).notMem
  have hfirst : elem ∉ a := fun hmem => hnotin (List.mem_append_left b hmem)
  rw [List.erase_append_right _ hfirst, List.erase_cons_head]
  refine ⟨t, _, hremove, hholds, Eq.trans ?_ (ids_erase s a b elem hfirst)⟩
  refine List.map_congr_left fun x hx => id_of_congr (hdata x ?_)
  rintro rfl
  exact hnotin hx

theorem find_refines (id : SndCtlElemId) (n : Nat) (hn : l.length ≤ n) :
    snd_hctl_find_elem n s id = some ((Hctl.snd_hctl_find_elem (s.ids l) id).bind (l[·]?)) := by
  rw [snd_hctl_find_elem, h.first]
  exact find_loop_eq s id l none n h.segment hn

/-- An element whose id is found is not listed, and any other one comes last. -/
theorem elem_add_refines (cb : Callbacks) (elem : Nat) (e : SndHctlElem) (hfresh : elem ∉ l)
    (he : s.elems elem = some e) (n : Nat) (hn : l.length ≤ n) :
    ∃ t l', snd_hctl_elem_add cb n s elem = some ((Hctl.snd_hctl_elem_add cb (s.ids l) e.id).1, t) ∧ Holds t l' ∧
      t.ids l' = (Hctl.snd_hctl_elem_add cb (s.ids l) e.id).2 := by
  have hfind := find_refines s l h e.id n hn
  unfold snd_hctl_elem_add Hctl.snd_hctl_elem_add
  simp only [he, Option.bind_eq_bind, Option.bind_some, hfind]
  cases hidx : Hctl.snd_hctl_find_elem (s.ids l) e.id with
  | none =>
    obtain ⟨t, hadd, hholds, hids⟩ := add_refines s l h elem e hfresh he
    refine ⟨t, l ++ [elem], ?_, hholds, hids⟩
    simp [hadd]
  | some i =>
    have hlt : i < l.length := by
      have hlt := (List.findIdx?_eq_some_iff_findIdx_eq.mp hidx).1
      rwa [SndHctl.ids, List.length_map] at hlt
    refine ⟨s, l, ?_, h, rfl⟩
    simp [hlt]

end Refine

end Salsa.Hctl.Links
