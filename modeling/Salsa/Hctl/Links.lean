import Salsa.Hctl.Delivery
import Salsa.Lib.Linked
import Mathlib.Data.List.Induction
import Mathlib.Algebra.Group.Nat.Defs

/-!
# The links between the elements

The list of `hcontrol.c` in memory: each element has the pointers to the ones before and behind it, and the hctl those
to the first and the last. Where a pointer leads to nothing that is allocated, there is no outcome.
-/

namespace Salsa.Hctl.Links

open Ctl Linked Run

/-! ## The source -/

/-- `snd_hctl_elem_t`. Of the callback it counts if there is one. -/
structure SndHctlElem where
  id : SndCtlElemId
  callback : Bool
  prev : Option Nat
  next : Option Nat

/-- `snd_hctl_t`, with the memory of the elements. -/
structure SndHctl where
  first_elem : Option Nat
  last_elem : Option Nat
  count : BitVec 32
  elems : Nat → Option SndHctlElem

/-- `elem->next = next` -/
def SndHctl.set_next (hctl : SndHctl) (elem : Nat) (next : Option Nat) : Option SndHctl :=
  (hctl.elems elem).map fun e => { hctl with elems := Function.update hctl.elems elem (some { e with next }) }

/-- `elem->prev = prev` -/
def SndHctl.set_prev (hctl : SndHctl) (elem : Nat) (prev : Option Nat) : Option SndHctl :=
  (hctl.elems elem).map fun e => { hctl with elems := Function.update hctl.elems elem (some { e with prev }) }

/-- `if (prev) prev->next = next; else hctl->first_elem = next;` -/
def SndHctl.link_next (hctl : SndHctl) (prev next : Option Nat) : Option SndHctl :=
  match prev with
  | some prev => hctl.set_next prev next
  | none => some { hctl with first_elem := next }

/-- `if (next) next->prev = prev; else hctl->last_elem = prev;` -/
def SndHctl.link_prev (hctl : SndHctl) (next prev : Option Nat) : Option SndHctl :=
  match next with
  | some next => hctl.set_prev next prev
  | none => some { hctl with last_elem := prev }

def add_elem_list (hctl : SndHctl) (elem : Nat) : Option SndHctl := do
  let hctl ← hctl.set_next elem none
  let hctl ← hctl.set_prev elem hctl.last_elem
  let hctl ← hctl.link_next hctl.last_elem (some elem)
  return { hctl with last_elem := some elem, count := hctl.count + 1#32 }

/-- The links of the element are read again after the one before it was written. -/
def del_elem_list (hctl : SndHctl) (elem : Nat) : Option SndHctl := do
  let hctl := { hctl with count := hctl.count - 1#32 }
  let e ← hctl.elems elem
  let hctl ← hctl.link_next e.prev e.next
  let e ← hctl.elems elem
  hctl.link_prev e.next e.prev

/-- The mask that the callback is called with, if there is one. -/
def snd_hctl_elem_throw_event (e : SndHctlElem) (mask : BitVec 32) : Option (BitVec 32) :=
  if e.callback then some mask else none

/-- A call of `snd_hctl_elem_remove`, with the mask that the callback of the element was called with. -/
structure Removal where
  elem : Nat
  thrown : Option (BitVec 32)

/-- The callback comes between the list and the memory of the element. It leaves both as they are. -/
def snd_hctl_elem_remove (hctl : SndHctl) (elem : Nat) : Option (SndHctl × Removal) := do
  let hctl ← del_elem_list hctl elem
  let e ← hctl.elems elem
  let thrown := snd_hctl_elem_throw_event e SND_CTL_EVENT_MASK_REMOVE
  return ({ hctl with elems := Function.update hctl.elems elem none }, { elem, thrown })

/-- The loop, with fuel, and the removals that it makes. -/
def snd_hctl_free : Nat → SndHctl → Option (SndHctl × List Removal)
  | n, hctl =>
    match hctl.last_elem with
    | none => some (hctl, [])
    | some elem =>
      match n with
      | 0 => none
      | n + 1 => do
        let (hctl, removal) ← snd_hctl_elem_remove hctl elem
        let (hctl, removals) ← snd_hctl_free n hctl
        return (hctl, removal :: removals)

/-! ## Runs -/

def SndHctl.nexts (hctl : SndHctl) (elem : Nat) : Option (Option Nat) := (hctl.elems elem).map SndHctlElem.next

def SndHctl.prevs (hctl : SndHctl) (elem : Nat) : Option (Option Nat) := (hctl.elems elem).map SndHctlElem.prev

/-- The hctl, and the elements that were added and not deleted, as they came. -/
structure State where
  hctl : SndHctl
  listed : List Nat

inductive Act where
  | add_elem_list (elem : Nat)
  | del_elem_list (elem : Nat)
  /-- An element is allocated, written or freed. -/
  | store (elem : Nat) (content : Option SndHctlElem)

def step (s : State) : Act → Option State
  | .add_elem_list elem =>
    (add_elem_list s.hctl elem).map fun hctl => { hctl, listed := s.listed ++ [elem] }
  | .del_elem_list elem =>
    (del_elem_list s.hctl elem).map fun hctl => { hctl, listed := s.listed.erase elem }
  | .store elem content =>
    some { s with hctl := { s.hctl with elems := Function.update s.hctl.elems elem content } }

/-- A fresh element is added, and a listed one deleted; memory is used outside of the list. -/
def Allowed (s : State) : Act → Prop
  | .add_elem_list elem => elem ∉ s.listed ∧ (s.hctl.elems elem).isSome
  | .del_elem_list elem => elem ∈ s.listed
  | .store elem _ => elem ∉ s.listed

instance (s : State) (a : Act) : Decidable (Allowed s a) :=
  match a with
  | .add_elem_list elem => inferInstanceAs (Decidable (elem ∉ s.listed ∧ (s.hctl.elems elem).isSome))
  | .del_elem_list elem => inferInstanceAs (Decidable (elem ∈ s.listed))
  | .store elem _ => inferInstanceAs (Decidable (elem ∉ s.listed))

/-- Without elements, in any memory. -/
def empty_hctl (elems : Nat → Option SndHctlElem) : State :=
  { hctl := { first_elem := none, last_elem := none, count := 0#32, elems }, listed := [] }

/-! ## The properties -/

/-- Each element was removed once, with its callback called if it has one, and its memory is free. -/
structure Emptied (s : State) (t : SndHctl) (removals : List Removal) : Prop where
  first : t.first_elem = none
  last : t.last_elem = none
  count : t.count = 0#32
  removed : removals.map Removal.elem = s.listed.reverse
  thrown : ∀ r ∈ removals, ∃ e, s.hctl.elems r.elem = some e ∧
    r.thrown = snd_hctl_elem_throw_event e SND_CTL_EVENT_MASK_REMOVE
  freed : ∀ elem, t.elems elem = if elem ∈ s.listed then none else s.hctl.elems elem

/-- The two chains go through the elements as they came, and the loop empties the list. -/
structure WellFormed (s : State) : Prop where
  distinct : s.listed.Nodup
  forward : ∀ n, s.listed.length ≤ n → walk s.hctl.nexts n s.hctl.first_elem = some s.listed
  forward_end : s.listed.getLast? = s.hctl.last_elem
  backward : ∀ n, s.listed.length ≤ n → walk s.hctl.prevs n s.hctl.last_elem = some s.listed.reverse
  backward_end : s.listed.reverse.getLast? = s.hctl.first_elem
  count : s.hctl.count = BitVec.ofNat 32 s.listed.length
  free : ∀ n, s.listed.length ≤ n → ∃ t removals, snd_hctl_free n s.hctl = some (t, removals) ∧ Emptied s t removals

/-! ## The invariant -/

structure Holds (hctl : SndHctl) (l : List Nat) : Prop where
  distinct : l.Nodup
  first : hctl.first_elem = l.head?
  last : hctl.last_elem = l.getLast?
  segment : Segment hctl.prevs hctl.nexts none l none
  count : hctl.count = BitVec.ofNat 32 l.length

/-- The links may have changed, and nothing else in the elements. -/
def SameData (s t : SndHctl) : Prop :=
  ∀ elem, (t.elems elem).map (fun e => (e.id, e.callback)) = (s.elems elem).map fun e => (e.id, e.callback)

/-- What writing a link forward changes. -/
structure NextSet (s t : SndHctl) (prev next : Option Nat) : Prop where
  first : t.first_elem = if prev = none then next else s.first_elem
  last : t.last_elem = s.last_elem
  count : t.count = s.count
  nexts : ∀ x, t.nexts x = if prev = some x then some next else s.nexts x
  prevs : ∀ x, t.prevs x = s.prevs x
  frame : ∀ x, prev ≠ some x → t.elems x = s.elems x
  data : SameData s t

structure PrevSet (s t : SndHctl) (next prev : Option Nat) : Prop where
  first : t.first_elem = s.first_elem
  last : t.last_elem = if next = none then prev else s.last_elem
  count : t.count = s.count
  nexts : ∀ x, t.nexts x = s.nexts x
  prevs : ∀ x, t.prevs x = if next = some x then some prev else s.prevs x
  frame : ∀ x, next ≠ some x → t.elems x = s.elems x
  data : SameData s t

theorem link_next_spec (s : SndHctl) (prev next : Option Nat) (h : ∀ x ∈ prev, (s.elems x).isSome) :
    ∃ t, s.link_next prev next = some t ∧ NextSet s t prev next := by
  cases prev with
  | none => exact ⟨_, rfl, rfl, rfl, rfl, fun x => rfl, fun x => rfl, fun x _ => rfl, fun x => rfl⟩
  | some prev =>
    obtain ⟨e, he⟩ := Option.isSome_iff_exists.mp (h prev rfl)
    have hlink : s.link_next (some prev) next =
        some { s with elems := Function.update s.elems prev (some { e with next }) } := by
      rw [SndHctl.link_next, SndHctl.set_next, he, Option.map_some]
    refine ⟨_, hlink, rfl, rfl, rfl, ?_, ?_, ?_, ?_⟩
    · intro x
      rcases eq_or_ne x prev with rfl | hne
      · simp [SndHctl.nexts]
      · simp [SndHctl.nexts, hne, hne.symm]
    · intro x
      rcases eq_or_ne x prev with rfl | hne
      · simp [SndHctl.prevs, he]
      · simp [SndHctl.prevs, hne]
    · intro x hne
      exact Function.update_of_ne (fun heq => hne (congrArg some heq.symm)) _ _
    · intro x
      rcases eq_or_ne x prev with rfl | hne
      · simp [he]
      · simp [hne]

theorem link_prev_spec (s : SndHctl) (next prev : Option Nat) (h : ∀ x ∈ next, (s.elems x).isSome) :
    ∃ t, s.link_prev next prev = some t ∧ PrevSet s t next prev := by
  cases next with
  | none => exact ⟨_, rfl, rfl, rfl, rfl, fun x => rfl, fun x => rfl, fun x _ => rfl, fun x => rfl⟩
  | some next =>
    obtain ⟨e, he⟩ := Option.isSome_iff_exists.mp (h next rfl)
    have hlink : s.link_prev (some next) prev =
        some { s with elems := Function.update s.elems next (some { e with prev }) } := by
      rw [SndHctl.link_prev, SndHctl.set_prev, he, Option.map_some]
    refine ⟨_, hlink, rfl, rfl, rfl, ?_, ?_, ?_, ?_⟩
    · intro x
      rcases eq_or_ne x next with rfl | hne
      · simp [SndHctl.nexts, he]
      · simp [SndHctl.nexts, hne]
    · intro x
      rcases eq_or_ne x next with rfl | hne
      · simp [SndHctl.prevs]
      · simp [SndHctl.prevs, hne, hne.symm]
    · intro x hne
      exact Function.update_of_ne (fun heq => hne (congrArg some heq.symm)) _ _
    · intro x
      rcases eq_or_ne x next with rfl | hne
      · simp [he]
      · simp [hne]

theorem SameData.trans {s t u : SndHctl} (hst : SameData s t) (htu : SameData t u) : SameData s u :=
  fun x => (htu x).trans (hst x)

theorem SameData.isSome {s t : SndHctl} (h : SameData s t) (x : Nat) : (t.elems x).isSome = (s.elems x).isSome := by
  simpa using congrArg Option.isSome (h x)

/-- An element that is listed is allocated. -/
theorem Holds.isSome {s : SndHctl} {l : List Nat} (h : Holds s l) (x : Nat) (hx : x ∈ l) : (s.elems x).isSome := by
  simpa [SndHctl.nexts] using h.segment.isSome x hx

/-! ## The two operations -/

/-- What the writes of `add_elem_list` leave. -/
structure Added (s t : SndHctl) (elem : Nat) : Prop where
  first : t.first_elem = if s.last_elem = none then some elem else s.first_elem
  last : t.last_elem = some elem
  count : t.count = s.count + 1#32
  prevs : ∀ x, t.prevs x = if elem = x then some s.last_elem else s.prevs x
  nexts : ∀ x, t.nexts x =
    if s.last_elem = some x then some (some elem) else if elem = x then some none else s.nexts x
  frame : ∀ x, elem ≠ x → s.last_elem ≠ some x → t.elems x = s.elems x
  data : SameData s t

/-- What the writes of `del_elem_list` leave, for an element with the links of `e`. -/
structure Deleted (s t : SndHctl) (e : SndHctlElem) : Prop where
  first : t.first_elem = if e.prev = none then e.next else s.first_elem
  last : t.last_elem = if e.next = none then e.prev else s.last_elem
  count : t.count = s.count - 1#32
  prevs : ∀ x, t.prevs x = if e.next = some x then some e.prev else s.prevs x
  nexts : ∀ x, t.nexts x = if e.prev = some x then some e.next else s.nexts x
  frame : ∀ x, e.prev ≠ some x → e.next ≠ some x → t.elems x = s.elems x
  data : SameData s t

theorem add_writes (s : SndHctl) (elem : Nat) (helem : (s.elems elem).isSome)
    (hlast : ∀ x ∈ s.last_elem, (s.elems x).isSome) : ∃ t, add_elem_list s elem = some t ∧ Added s t elem := by
  obtain ⟨t₁, ht₁, h₁⟩ := link_next_spec s (some elem) none (by simpa using helem)
  obtain ⟨t₂, ht₂, h₂⟩ := link_prev_spec t₁ (some elem) t₁.last_elem (by simpa [h₁.data.isSome] using helem)
  have hlast₂ : t₂.last_elem = s.last_elem := h₂.last.trans h₁.last
  obtain ⟨t₃, ht₃, h₃⟩ := link_next_spec t₂ t₂.last_elem (some elem) (by
    intro x hx
    rw [h₂.data.isSome, h₁.data.isSome]
    exact hlast x (hlast₂ ▸ hx))
  have hadd : add_elem_list s elem = some { t₃ with last_elem := some elem, count := t₃.count + 1#32 } := by
    unfold add_elem_list
    rw [show s.set_next elem none = some t₁ from ht₁, Option.bind_eq_bind, Option.bind_some,
      show t₁.set_prev elem t₁.last_elem = some t₂ from ht₂, Option.bind_some, ht₃]
    rfl
  refine ⟨_, hadd, ?_, rfl, ?_, fun x => ?_, fun x => ?_, fun x hne hne' => ?_, ?_⟩
  · refine h₃.first.trans ?_
    rw [hlast₂, h₂.first, h₁.first, if_neg (Option.some_ne_none elem)]
  · dsimp only
    rw [h₃.count, h₂.count, h₁.count]
  · refine (h₃.prevs x).trans ((h₂.prevs x).trans ?_)
    rw [h₁.last, h₁.prevs]
    simp only [Option.some.injEq]
  · refine (h₃.nexts x).trans ?_
    rw [hlast₂, h₂.nexts, h₁.nexts]
    simp only [Option.some.injEq]
  · have hx : some elem ≠ some x := fun heq => hne (Option.some.inj heq)
    exact (h₃.frame x (hlast₂ ▸ hne')).trans ((h₂.frame x hx).trans (h₁.frame x hx))
  · exact (h₁.data.trans h₂.data).trans h₃.data

theorem del_writes (s : SndHctl) (elem : Nat) (e : SndHctlElem) (he : s.elems elem = some e)
    (hself : e.prev ≠ some elem) (hprev : ∀ x ∈ e.prev, (s.elems x).isSome)
    (hnext : ∀ x ∈ e.next, (s.elems x).isSome) : ∃ t, del_elem_list s elem = some t ∧ Deleted s t e := by
  obtain ⟨t₁, ht₁, h₁⟩ := link_next_spec { s with count := s.count - 1#32 } e.prev e.next hprev
  have he₁ : t₁.elems elem = some e := (h₁.frame elem hself).trans he
  obtain ⟨t, ht, h₂⟩ := link_prev_spec t₁ e.next e.prev fun x hx => (h₁.data.isSome x).trans (hnext x hx)
  have hdel : del_elem_list s elem = some t := by
    unfold del_elem_list
    simp only [Option.bind_eq_bind, he, Option.bind_some, ht₁, he₁, ht]
  refine ⟨t, hdel, h₂.first.trans h₁.first, ?_, h₂.count.trans h₁.count, fun x => ?_, fun x => ?_,
    fun x hx hx' => (h₂.frame x hx').trans (h₁.frame x hx), h₁.data.trans h₂.data⟩
  · rw [h₂.last, h₁.last]
  · rw [h₂.prevs, h₁.prevs]
    rfl
  · rw [h₂.nexts, h₁.nexts]
    rfl

theorem add_spec (s : SndHctl) (l : List Nat) (elem : Nat) (h : Holds s l) (hfresh : elem ∉ l)
    (helem : (s.elems elem).isSome) :
    ∃ t, add_elem_list s elem = some t ∧ Holds t (l ++ [elem]) ∧ SameData s t ∧
      ∀ x ∉ l ++ [elem], t.elems x = s.elems x := by
  have hlast (x : Nat) (hx : s.last_elem = some x) : x ∈ l := List.mem_of_getLast? (h.last.symm.trans hx)
  obtain ⟨t, hadd, ht⟩ := add_writes s elem helem fun x hx => h.isSome x (hlast x hx)
  have hnodup : (l ++ [elem]).Nodup := by
    simpa [List.nodup_append, h.distinct] using fun x hx (heq : x = elem) => hfresh (heq ▸ hx)
  have hne (y : Nat) (hy : y ∈ l) : elem ≠ y := fun heq => hfresh (heq ▸ hy)
  refine ⟨t, hadd, ⟨hnodup, ?_, ?_, ?_, ?_⟩, ht.data, fun x hx => ?_⟩
  · rw [ht.first, h.last, h.first]
    cases l <;> simp
  · rw [ht.last, List.getLast?_concat]
  · refine h.segment.push hnodup (fun y hy => ?_) (fun y hy => ?_) ?_ ?_
    · rw [ht.prevs, if_neg (hne y hy)]
    · rw [ht.nexts, if_neg (hne y hy), h.last]
    · rw [ht.prevs, if_pos rfl, h.last, Option.or_none]
    · rw [ht.nexts, if_neg fun heq => hfresh (hlast elem heq), if_pos rfl]
  · rw [ht.count, h.count, List.length_append, BitVec.ofNat_add]
    rfl
  · simp only [List.mem_append, List.mem_singleton, not_or] at hx
    exact ht.frame x (Ne.symm hx.2) fun heq => hx.1 (hlast x heq)

theorem del_spec (s : SndHctl) (a b : List Nat) (elem : Nat) (h : Holds s (a ++ elem :: b)) :
    ∃ t, del_elem_list s elem = some t ∧ Holds t (a ++ b) ∧ SameData s t ∧
      ∀ x ∉ a ++ b, t.elems x = s.elems x := by
  have hsub : List.Sublist (a ++ b) (a ++ elem :: b) := (List.sublist_cons_self elem b).append_left a
  have hnotin : elem ∉ a ++ b := (List.nodup_middle.mp h.distinct).notMem
  have hbefore (x : Nat) (hx : a.getLast? = some x) : x ∈ a ++ b := List.mem_append_left b (List.mem_of_getLast? hx)
  have hbehind (x : Nat) (hx : b.head? = some x) : x ∈ a ++ b := List.mem_append_right a (List.mem_of_head? hx)
  -- The links of the element, from the segment around it.
  obtain ⟨-, hprev, hnext, -⟩ := (segment_append a (elem :: b)).mp h.segment
  rw [Option.or_none] at hprev hnext
  obtain ⟨e, he, heprev⟩ := Option.map_eq_some_iff.mp hprev
  have henext : e.next = b.head? := by
    rw [SndHctl.nexts, he, Option.map_some] at hnext
    exact Option.some.inj hnext
  obtain ⟨t, hdel, ht⟩ := del_writes s elem e he
    (fun heq => hnotin (hbefore elem (heprev ▸ heq)))
    (fun x hx => h.isSome x (hsub.subset (hbefore x (heprev ▸ hx))))
    (fun x hx => h.isSome x (hsub.subset (hbehind x (henext ▸ hx))))
  refine ⟨t, hdel, ⟨h.distinct.sublist hsub, ?_, ?_, ?_, ?_⟩, ht.data, fun x hx => ?_⟩
  · rw [ht.first, heprev, henext]
    cases a with
    | nil => rfl
    | cons x a => simpa using h.first
  · rw [ht.last, henext, heprev]
    cases b with
    | nil => simp
    | cons x b => simpa using h.last
  · refine h.segment.unlink h.distinct (fun y _ => ?_) fun y _ => ?_
    · rw [ht.prevs, henext, heprev, Option.or_none]
    · rw [ht.nexts, heprev, henext, Option.or_none]
  · rw [ht.count, h.count, List.length_append, List.length_append, List.length_cons, ← Nat.add_assoc,
      BitVec.ofNat_add, BitVec.add_sub_cancel]
  · exact ht.frame x (fun heq => hx (hbefore x (heprev ▸ heq))) fun heq => hx (hbehind x (henext ▸ heq))

theorem Holds.congr {s t : SndHctl} {l : List Nat} (h : Holds s l) (hfirst : t.first_elem = s.first_elem)
    (hlast : t.last_elem = s.last_elem) (hcount : t.count = s.count) (helems : ∀ x ∈ l, t.elems x = s.elems x) :
    Holds t l := by
  refine ⟨h.distinct, hfirst.trans h.first, hlast.trans h.last, ?_, hcount.trans h.count⟩
  refine h.segment.congr (fun x hx => ?_) fun x hx => ?_
  · rw [SndHctl.prevs, helems x hx]
    rfl
  · rw [SndHctl.nexts, helems x hx]
    rfl

/-! ## The removals -/

/-- A removal frees the element, and changes no more than the links of the others. -/
theorem remove_spec (s : SndHctl) (a b : List Nat) (elem : Nat) (h : Holds s (a ++ elem :: b)) :
    ∃ t e, s.elems elem = some e ∧
      snd_hctl_elem_remove s elem =
        some (t, ⟨elem, snd_hctl_elem_throw_event e SND_CTL_EVENT_MASK_REMOVE⟩) ∧
      Holds t (a ++ b) ∧ t.elems elem = none ∧
      (∀ x, x ≠ elem → (t.elems x).map (fun e => (e.id, e.callback)) = (s.elems x).map fun e => (e.id, e.callback)) ∧
      ∀ x ∉ a ++ elem :: b, t.elems x = s.elems x := by
  obtain ⟨t, hdel, hholds, hdata, hframe⟩ := del_spec s a b elem h
  have hnotin : elem ∉ a ++ b := (List.nodup_middle.mp h.distinct).notMem
  obtain ⟨e, he⟩ := Option.isSome_iff_exists.mp (h.isSome elem (by simp))
  have he' : t.elems elem = some e := (hframe elem hnotin).trans he
  refine ⟨{ t with elems := Function.update t.elems elem none }, e, he, ?_, ?_, ?_, ?_, ?_⟩
  · unfold snd_hctl_elem_remove
    rw [hdel, Option.bind_eq_bind, Option.bind_some, he']
    rfl
  · refine hholds.congr rfl rfl rfl fun x hx => Function.update_of_ne ?_ _ _
    rintro rfl
    exact hnotin hx
  · exact Function.update_self _ _ _
  · intro x hne
    dsimp only
    rw [Function.update_of_ne hne]
    exact hdata x
  · intro x hx
    have hne : x ≠ elem := fun heq => hx (by simp [heq])
    have hx' : x ∉ a ++ b := fun hmem => hx (((List.sublist_cons_self elem b).append_left a).subset hmem)
    exact (Function.update_of_ne hne _ _).trans (hframe x hx')

/-- A removal of the last element comes before the removals of the others. -/
theorem Emptied.removal {s t u : SndHctl} {l : List Nat} {removals : List Removal} (elem : Nat) (e : SndHctlElem)
    (h : Emptied ⟨t, l⟩ u removals) (he : s.elems elem = some e) (hfree : t.elems elem = none)
    (hdata : ∀ x, x ≠ elem →
      (t.elems x).map (fun e => (e.id, e.callback)) = (s.elems x).map fun e => (e.id, e.callback))
    (hframe : ∀ x ∉ l ++ [elem], t.elems x = s.elems x) (hnotin : elem ∉ l) :
    Emptied ⟨s, l ++ [elem]⟩ u (⟨elem, snd_hctl_elem_throw_event e SND_CTL_EVENT_MASK_REMOVE⟩ :: removals) := by
  refine ⟨h.first, h.last, h.count, by simp [h.removed], fun r hr => ?_, fun x => ?_⟩
  · rcases List.mem_cons.mp hr with rfl | hr
    · exact ⟨e, he, rfl⟩
    · obtain ⟨e', he', hthrown⟩ := h.thrown r hr
      have hmem : r.elem ∈ l := by
        have hmap := List.mem_map_of_mem (f := Removal.elem) hr
        rwa [h.removed, List.mem_reverse] at hmap
      -- The callback is still the one from before the first removal.
      have hsame := hdata r.elem fun heq => hnotin (heq ▸ hmem)
      dsimp only at he'
      rw [he', Option.map_some] at hsame
      obtain ⟨e₀, he₀, heq⟩ := Option.map_eq_some_iff.mp hsame.symm
      refine ⟨e₀, he₀, ?_⟩
      rw [hthrown, snd_hctl_elem_throw_event, snd_hctl_elem_throw_event, (Prod.mk.inj heq).2]
  · rw [h.freed x]
    by_cases hx : x ∈ l
    · simp [hx]
    · by_cases heq : x = elem
      · simp [heq, hfree]
      · rw [if_neg hx, if_neg (by simp [hx, heq])]
        exact hframe x (by simp [hx, heq])

/-- The loop takes the elements from the last one on, and needs no more rounds than there are elements. -/
theorem free_spec (s : SndHctl) (l : List Nat) (h : Holds s l) (n : Nat) (hn : l.length ≤ n) :
    ∃ t removals, snd_hctl_free n s = some (t, removals) ∧ Emptied ⟨s, l⟩ t removals := by
  induction l using List.reverseRecOn generalizing s n with
  | nil =>
    have hlast : s.last_elem = none := h.last
    refine ⟨s, [], ?_, h.first, hlast, h.count, rfl, by simp, by simp⟩
    unfold snd_hctl_free
    rw [hlast]
  | append_singleton l elem ih =>
    have hlast : s.last_elem = some elem := by simpa using h.last
    obtain ⟨n, rfl⟩ : ∃ m, n = m + 1 := Nat.exists_eq_succ_of_ne_zero (by simp at hn; omega)
    obtain ⟨t, e, he, hremove, hholds, hfree, hdata, hframe⟩ := remove_spec s l [] elem h
    rw [List.append_nil] at hholds
    obtain ⟨u, removals, hloop, hemptied⟩ := ih t hholds n (by simpa using hn)
    have hnotin : elem ∉ l := by
      have hnodup := (List.nodup_middle.mp h.distinct).notMem
      rwa [List.append_nil] at hnodup
    refine ⟨u, _, ?_, hemptied.removal elem e he hfree hdata hframe hnotin⟩
    unfold snd_hctl_free
    rw [hlast]
    dsimp only
    rw [hremove, Option.bind_eq_bind, Option.bind_some, hloop]
    rfl

theorem Holds.wellFormed (s : State) (h : Holds s.hctl s.listed) : WellFormed s := by
  have hback := (segment_reverse s.listed).mp h.segment
  refine ⟨h.distinct, fun n hn => ?_, h.last.symm, fun n hn => ?_, ?_, h.count, free_spec s.hctl s.listed h⟩
  · rw [h.first]
    exact h.segment.walk_eq n hn
  · rw [h.last, ← List.head?_reverse]
    exact hback.walk_eq n (by simpa using hn)
  · rw [h.first, List.getLast?_reverse]

/-! ## Runs -/

theorem step_holds (s : State) (a : Act) (h : Holds s.hctl s.listed) (hallowed : Allowed s a) :
    ∃ t, step s a = some t ∧ Holds t.hctl t.listed := by
  cases a with
  | add_elem_list elem =>
    obtain ⟨hfresh, helem⟩ := hallowed
    obtain ⟨t, hadd, hholds, -⟩ := add_spec s.hctl s.listed elem h hfresh helem
    exact ⟨_, by rw [step, hadd, Option.map_some], hholds⟩
  | del_elem_list elem =>
    obtain ⟨a, b, hlisted⟩ := List.append_of_mem (show elem ∈ s.listed from hallowed)
    rw [hlisted] at h
    obtain ⟨t, hdel, hholds, -⟩ := del_spec s.hctl a b elem h
    have hnotin : elem ∉ a := fun hmem => (List.nodup_middle.mp h.distinct).notMem (List.mem_append_left b hmem)
    refine ⟨_, by rw [step, hdel, Option.map_some], ?_⟩
    dsimp only
    rw [hlisted, List.erase_append_right _ hnotin, List.erase_cons_head]
    exact hholds
  | store elem content =>
    refine ⟨_, rfl, h.congr rfl rfl rfl fun x hx => Function.update_of_ne ?_ _ _⟩
    rintro rfl
    exact hallowed hx

theorem empty_holds (elems : Nat → Option SndHctlElem) : Holds (empty_hctl elems).hctl (empty_hctl elems).listed :=
  ⟨List.nodup_nil, rfl, rfl, trivial, rfl⟩

/-- In every run the two chains and the two ends agree on the elements as they came, and the loop empties the list. -/
theorem list_well_formed (elems : Nat → Option SndHctlElem) (acts : List Act)
    (hallowed : AllSteps step Allowed (empty_hctl elems) acts) : AllStates step WellFormed (empty_hctl elems) acts :=
  allStates_of_allSteps (fun s => Holds s.hctl s.listed) WellFormed Allowed Holds.wellFormed step_holds
    (empty_hctl elems) acts (empty_holds elems) hallowed

def blank_elem : SndHctlElem := { id := zeroed_id, callback := true, prev := none, next := none }

/-- Two elements come, and the first of them goes. -/
def two_elems : List Act :=
  [.store 5 (some blank_elem), .add_elem_list 5, .store 7 (some blank_elem), .add_elem_list 7, .del_elem_list 5]

theorem list_well_formed_two : AllStates step WellFormed (empty_hctl fun _ => none) two_elems :=
  list_well_formed (fun _ => none) two_elems (by
    unfold two_elems
    iterate 5 rw [allSteps_cons_iff _ _ _ _ _ rfl]
    exact ⟨by decide, by decide, by decide, by decide, by decide, trivial⟩)

/-! ## More elements than an unsigned int counts -/

/-- The number itself, and not what is left of it in 32 bits. -/
def Counted (s : State) : Prop := WellFormed s ∧ s.hctl.count.toNat = s.listed.length

/-- `n` elements come, at the addresses from `first` on. -/
def crowd : Nat → Nat → List Act
  | _, 0 => []
  | first, n + 1 => .store first (some blank_elem) :: .add_elem_list first :: crowd (first + 1) n

theorem crowd_listed (n first : Nat) (s : State) (h : Holds s.hctl s.listed) (hbelow : ∀ x ∈ s.listed, x < first) :
    AllSteps step Allowed s (crowd first n) ∧
      ∃ t, run step s (crowd first n) = some t ∧ t.listed.length = s.listed.length + n := by
  induction n generalizing first s with
  | zero => exact ⟨trivial, s, rfl, rfl⟩
  | succ n ih =>
    have hfresh : first ∉ s.listed := fun hmem => Nat.lt_irrefl first (hbelow first hmem)
    obtain ⟨s₁, hstore, hholds⟩ := step_holds s (.store first (some blank_elem)) h hfresh
    cases hstore
    have hsome : (Function.update s.hctl.elems first (some blank_elem) first).isSome := by simp
    obtain ⟨t, hadd, hholds', -⟩ := add_spec _ s.listed first hholds hfresh hsome
    have hstep : step { s with hctl := { s.hctl with
        elems := Function.update s.hctl.elems first (some blank_elem) } } (.add_elem_list first) =
        some { hctl := t, listed := s.listed ++ [first] } := by
      rw [step, hadd, Option.map_some]
    obtain ⟨hallowed, u, hrun, hlength⟩ := ih (first + 1) { hctl := t, listed := s.listed ++ [first] } hholds' (by
      intro x hx
      rcases List.mem_append.mp hx with hx | hx
      · exact Nat.lt_succ_of_lt (hbelow x hx)
      · exact List.mem_singleton.mp hx ▸ Nat.lt_succ_self first)
    refine ⟨?_, u, ?_, ?_⟩
    · rw [crowd, allSteps_cons_iff _ _ _ _ _ rfl, allSteps_cons_iff _ _ _ _ _ hstep]
      exact ⟨hfresh, ⟨hfresh, hsome⟩, hallowed⟩
    · rw [crowd, run_cons, show step s (.store first (some blank_elem)) = some _ from rfl, Option.bind_some, run_cons,
        hstep, Option.bind_some, hrun]
    · rw [hlength, List.length_append, List.length_singleton]
      omega

/-- With 2^32 elements the unsigned int is 0 again. -/
theorem count_wraps : AllSteps step Allowed (empty_hctl fun _ => none) (crowd 0 (2 ^ 32)) ∧
    ¬ AllStates step Counted (empty_hctl fun _ => none) (crowd 0 (2 ^ 32)) := by
  obtain ⟨hallowed, t, hrun, hlength⟩ := crowd_listed (2 ^ 32) 0 (empty_hctl fun _ => none)
    (empty_holds fun _ => none) (fun x hx => absurd hx List.not_mem_nil)
  refine ⟨hallowed, fun hcounted => ?_⟩
  have hcount := (allStates_last step Counted _ t _ hcounted hrun).2
  have hword := t.hctl.count.isLt
  rw [hcount, hlength] at hword
  exact absurd hword (Nat.not_lt.mpr (Nat.le_add_left _ _))

end Salsa.Hctl.Links
