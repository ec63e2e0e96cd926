import Salsa.Lib.Cells
import Salsa.Lib.Run
import Salsa.Mixer.Elems
import Mathlib.Tactic.Common

/-!
# The list of mixer elements

The array `pelems` of a mixer, with the position that each element in it caches, and the ids of the
elements: what `add_mixer_elem`, `remove_mixer_elem` and `snd_mixer_sort` do to them.
-/

namespace Salsa.Mixer.Pelems

open Cells Run

structure SndMixerSelemId where
  name : List Char
  index : BitVec 32
deriving DecidableEq

/-- `snd_mixer_elem_t`, as far as the array is concerned. -/
structure Elem where
  sid : SndMixerSelemId
  index : Nat

/-- The array stands for its first `count` entries. -/
structure State where
  elems : Nat → Option Elem
  pelems : List Nat
  alloc : Nat
  next : Nat

/-- The name of a control, in 44 characters with its NUL. -/
abbrev ControlName := { name : List Char // name.length < 44 }

/-- `elem->index` of the elements in the list, from `i` on. -/
def set_index : List Nat → Nat → (Nat → Option Elem) → Option (Nat → Option Elem)
  | [], _, elems => some elems
  | e :: rest, i, elems =>
    (elems e).bind fun elem =>
      set_index rest (i + 1) (Function.update elems e (some { elem with index := i }))

def snd_mixer_sort (compare : Sorter) (s : State) : Option State :=
  let pelems := compare.qsort s.pelems
  (set_index pelems 0 s.elems).map fun elems => { s with pelems, elems }

def add_mixer_elem (realloc : Bool) (compare : Sorter) (s : State) (e : Nat) : Option State :=
  if s.pelems.length = s.alloc ∧ ¬ realloc then some s
  else
    let alloc := if s.pelems.length = s.alloc then s.alloc + 32 else s.alloc
    snd_mixer_sort compare { s with pelems := s.pelems ++ [e], alloc }

/-- The loop of `remove_mixer_elem`: the entries behind the element move to the front. -/
def remove_loop (e : Nat) : List Nat → Nat → (Nat → Option Elem) → Option (List Nat × (Nat → Option Elem))
  | [], _, elems => some ([], elems)
  | p :: rest, i, elems =>
    if p = e then (set_index rest i elems).map fun elems => (rest, elems)
    else (remove_loop e rest (i + 1) elems).map fun (rest, elems) => (p :: rest, elems)

def remove_mixer_elem (s : State) (e : Nat) : Option State :=
  (remove_loop e s.pelems 0 s.elems).map fun (pelems, elems) =>
    { s with pelems, elems := Function.update elems e none }

/-- The scan of `add_simple_element`: the index for a new element, unless one takes the item. -/
def scan (elems : Nat → Option Elem) (name : List Char) (occupied : Nat → Bool) :
    List Nat → BitVec 32 → Option (Option (BitVec 32))
  | [], index => some (some index)
  | e :: rest, index =>
    (elems e).bind fun elem =>
      if elem.sid.name = name then
        let index := if index ≤ elem.sid.index then elem.sid.index + 1 else index
        if occupied e then scan elems name occupied rest index else some none
      else scan elems name occupied rest index

/-- The element for a control, when none in the list takes its item and one can be allocated. -/
def add_simple_element (alloc_elem realloc : Bool) (compare : Sorter) (occupied : Nat → Bool) (s : State)
    (name : List Char) : Option State :=
  (scan s.elems name occupied s.pelems 0#32).bind fun found =>
    match found with
    | none => some s
    | some index =>
      if ¬ alloc_elem then some s
      else
        let elem : Elem := { sid := { name := name.take 59, index }, index := 0 }
        add_mixer_elem realloc compare
          { s with elems := Function.update s.elems s.next (some elem), next := s.next + 1 } s.next

/-! ## Reading the list -/

/-- `none` for an access outside of the array, `some none` for NULL. -/
def snd_mixer_elem_next (s : State) (e : Nat) : Option (Option Nat) :=
  (s.elems e).bind fun elem =>
    if elem.index + 1 = s.pelems.length then some none else s.pelems[elem.index + 1]?.map some

def snd_mixer_elem_prev (s : State) (e : Nat) : Option (Option Nat) :=
  (s.elems e).bind fun elem =>
    if elem.index = 0 then some none else s.pelems[elem.index - 1]?.map some

def snd_mixer_find_selem (s : State) (id : SndMixerSelemId) : List Nat → Option (Option Nat)
  | [] => some none
  | e :: rest =>
    (s.elems e).bind fun elem => if elem.sid = id then some (some e) else snd_mixer_find_selem s id rest

/-- The elements from `e` on, as `snd_mixer_elem_next` gives them, `fuel` of them at most. -/
def visit (s : State) : Nat → Option Nat → Option (List Nat)
  | _, none => some []
  | 0, some _ => none
  | fuel + 1, some e =>
    (snd_mixer_elem_next s e).bind fun next => (visit s fuel next).map fun rest => e :: rest

inductive Op where
  | add (name : ControlName) (occupied : Nat → Bool) (alloc_elem realloc : Bool) (compare : Sorter)
  | remove (e : Nat)
  | sort (compare : Sorter)

/-- Only elements in the list are removed. -/
def step (s : State) : Op → Option State
  | .add name occupied alloc_elem realloc compare =>
    add_simple_element alloc_elem realloc compare occupied s (decode_name name.val).name
  | .remove e => if e ∈ s.pelems then remove_mixer_elem s e else some s
  | .sort compare => snd_mixer_sort compare s

def opened : State := { elems := fun _ => none, pelems := [], alloc := 0, next := 0 }

/-! ## The positions -/

/-- The elements of `l` have their positions, from `i` on; the others are as they were. -/
structure Positioned (l : List Nat) (i : Nat) (elems elems' : Nat → Option Elem) : Prop where
  set : set_index l i elems = some elems'
  other : ∀ e, e ∉ l → elems' e = elems e
  index : ∀ k e, l[k]? = some e → ∃ elem, elems e = some elem ∧ elems' e = some { elem with index := i + k }

theorem set_index_spec (l : List Nat) (i : Nat) (elems : Nat → Option Elem) (hnodup : l.Nodup)
    (hlive : ∀ e ∈ l, (elems e).isSome) : ∃ elems', Positioned l i elems elems' := by
  induction l generalizing i elems with
  | nil => exact ⟨elems, rfl, fun _ _ => rfl, fun k e h => by simp at h⟩
  | cons p rest ih =>
    obtain ⟨hp, hrest⟩ := List.nodup_cons.mp hnodup
    obtain ⟨elem, helem⟩ := Option.isSome_iff_exists.mp (hlive p List.mem_cons_self)
    obtain ⟨elems', hset, hother, hindex⟩ := ih (i + 1)
      (Function.update elems p (some { elem with index := i })) hrest fun e he => by
        rw [Function.update_of_ne fun h : e = p => hp (h ▸ he)]
        exact hlive e (List.mem_cons_of_mem _ he)
    refine ⟨elems', ?_, fun e he => ?_, fun k e hk => ?_⟩
    · unfold set_index
      rw [helem, Option.bind_some]
      exact hset
    · rw [List.mem_cons, not_or] at he
      rw [hother e he.2, Function.update_of_ne he.1]
    · cases k with
      | zero =>
        obtain rfl : p = e := by simpa using hk
        exact ⟨elem, helem, by rw [hother p hp, Function.update_self]; rfl⟩
      | succ k =>
        have hk : rest[k]? = some e := by simpa using hk
        obtain ⟨elem', helem', hnew⟩ := hindex k e hk
        rw [Function.update_of_ne fun h : e = p => hp (h ▸ List.mem_of_getElem? hk)] at helem'
        exact ⟨elem', helem', by rw [hnew, Nat.add_right_comm, Nat.add_assoc]⟩

section Positioned

variable {l : List Nat} {i : Nat} {elems elems' : Nat → Option Elem} (h : Positioned l i elems elems')

include h

theorem Positioned.sid (e : Nat) (elem : Elem) (helem : elems' e = some elem) :
    ∃ old, elems e = some old ∧ old.sid = elem.sid := by
  by_cases hmem : e ∈ l
  · obtain ⟨k, hk⟩ := List.mem_iff_getElem?.mp hmem
    obtain ⟨old, hold, hnew⟩ := h.index k e hk
    rw [hnew, Option.some.injEq] at helem
    exact ⟨old, hold, by rw [← helem]⟩
  · rw [h.other e hmem] at helem
    exact ⟨elem, helem, rfl⟩

theorem Positioned.free (n : Nat) (hnone : elems n = none) : elems' n = none := by
  rw [Option.eq_none_iff_forall_ne_some]
  intro elem helem
  obtain ⟨old, hold, -⟩ := h.sid n elem helem
  rw [hnone] at hold
  cases hold

end Positioned

theorem remove_loop_spec (e : Nat) (before after : List Nat) (i : Nat) (elems : Nat → Option Elem)
    (hbefore : e ∉ before) :
    remove_loop e (before ++ e :: after) i elems =
      (set_index after (i + before.length) elems).map fun elems => (before ++ after, elems) := by
  induction before generalizing i with
  | nil =>
    rw [List.nil_append, remove_loop, if_pos rfl]
    rfl
  | cons p before ih =>
    rw [List.mem_cons, not_or] at hbefore
    rw [List.cons_append, remove_loop, if_neg (Ne.symm hbefore.1), ih (i + 1) hbefore.2, Option.map_map]
    rw [List.length_cons, Nat.add_right_comm, Nat.add_assoc]
    rfl

/-! ## The invariant -/

structure Inv (s : State) : Prop where
  bound : s.pelems.length ≤ s.alloc
  nodup : s.pelems.Nodup
  index : ∀ i e, s.pelems[i]? = some e → ∃ elem, s.elems e = some elem ∧ elem.index = i
  sid : ∀ e ∈ s.pelems, ∀ e' ∈ s.pelems, ∀ elem elem', s.elems e = some elem → s.elems e' = some elem' →
    elem.sid = elem'.sid → e = e'
  fresh : ∀ n, s.next ≤ n → s.elems n = none

theorem Inv.live (s : State) (hs : Inv s) (e : Nat) (he : e ∈ s.pelems) : (s.elems e).isSome := by
  obtain ⟨i, hi⟩ := List.mem_iff_getElem?.mp he
  obtain ⟨elem, helem, -⟩ := hs.index i e hi
  rw [helem]
  rfl

/-- What sorting needs: the elements are there, with ids of their own. -/
structure Unsorted (s : State) : Prop where
  bound : s.pelems.length ≤ s.alloc
  nodup : s.pelems.Nodup
  live : ∀ e ∈ s.pelems, (s.elems e).isSome
  sid : ∀ e ∈ s.pelems, ∀ e' ∈ s.pelems, ∀ elem elem', s.elems e = some elem → s.elems e' = some elem' →
    elem.sid = elem'.sid → e = e'
  fresh : ∀ n, s.next ≤ n → s.elems n = none

theorem Inv.unsorted (s : State) (hs : Inv s) : Unsorted s := ⟨hs.bound, hs.nodup, hs.live s, hs.sid, hs.fresh⟩

theorem sort_spec (compare : Sorter) (s : State) (hs : Unsorted s) :
    ∃ s', snd_mixer_sort compare s = some s' ∧ Inv s' := by
  have hperm := compare.perm s.pelems
  obtain ⟨elems, hpositioned⟩ := set_index_spec (compare.qsort s.pelems) 0 s.elems
    (hperm.nodup_iff.mpr hs.nodup) fun e he => hs.live e (hperm.mem_iff.mp he)
  refine ⟨{ s with pelems := compare.qsort s.pelems, elems }, ?_, ?_, ?_, ?_, ?_, ?_⟩
  · unfold snd_mixer_sort
    dsimp only
    rw [hpositioned.set]
    rfl
  · show (compare.qsort s.pelems).length ≤ s.alloc
    rw [hperm.length_eq]
    exact hs.bound
  · exact hperm.nodup_iff.mpr hs.nodup
  · intro i e hi
    obtain ⟨old, -, hnew⟩ := hpositioned.index i e hi
    exact ⟨_, hnew, Nat.zero_add i⟩
  · intro e he e' he' elem elem' helem helem' heq
    obtain ⟨old, hold, hsame⟩ := hpositioned.sid e elem helem
    obtain ⟨old', hold', hsame'⟩ := hpositioned.sid e' elem' helem'
    exact hs.sid e (hperm.mem_iff.mp he) e' (hperm.mem_iff.mp he') old old' hold hold'
      (hsame.trans (heq.trans hsame'.symm))
  · exact fun n hn => hpositioned.free n (hs.fresh n hn)

theorem remove_spec (s : State) (hs : Inv s) (e : Nat) (he : e ∈ s.pelems) :
    ∃ s', remove_mixer_elem s e = some s' ∧ Inv s' := by
  obtain ⟨before, after, hsplit⟩ := List.append_of_mem he
  have hnodup := hs.nodup
  rw [hsplit, List.nodup_middle, List.nodup_cons] at hnodup
  obtain ⟨hnot, hrest⟩ := hnodup
  have hmem (e' : Nat) (he' : e' ∈ before ++ after) : e' ∈ s.pelems ∧ e' ≠ e := by
    refine ⟨?_, fun heq => hnot (heq ▸ he')⟩
    rw [hsplit, List.mem_append, List.mem_cons]
    exact (List.mem_append.mp he').imp_right .inr
  obtain ⟨elems, hpositioned⟩ := set_index_spec after (0 + before.length) s.elems hrest.of_append_right
    fun e' he' => hs.live s e' (hmem e' (List.mem_append_right _ he')).1
  have hindex (i e' : Nat) (hi : (before ++ after)[i]? = some e') : ∃ elem, elems e' = some elem ∧ elem.index = i := by
    rcases lt_or_ge i before.length with hlt | hge
    · rw [List.getElem?_append_left hlt] at hi
      have hnotafter : e' ∉ after := List.disjoint_of_nodup_append hrest (List.mem_of_getElem? hi)
      rw [hpositioned.other e' hnotafter]
      apply hs.index
      rw [hsplit, List.getElem?_append_left hlt, hi]
    · rw [List.getElem?_append_right hge] at hi
      obtain ⟨old, -, hnew⟩ := hpositioned.index _ e' hi
      exact ⟨_, hnew, by show 0 + before.length + (i - before.length) = i; omega⟩
  refine ⟨{ s with pelems := before ++ after, elems := Function.update elems e none }, ?_, ?_, hrest, ?_, ?_, ?_⟩
  · have hnotbefore : e ∉ before := fun h => hnot (List.mem_append_left _ h)
    unfold remove_mixer_elem
    rw [hsplit, remove_loop_spec e before after 0 s.elems hnotbefore, hpositioned.set]
    rfl
  · have hbound := hs.bound
    rw [hsplit] at hbound
    simp only [List.length_append, List.length_cons] at hbound ⊢
    omega
  · intro i e' hi
    obtain ⟨elem, helem, heq⟩ := hindex i e' hi
    exact ⟨elem, freed_eq_some.mpr ⟨(hmem e' (List.mem_of_getElem? hi)).2, helem⟩, heq⟩
  · intro e₁ he₁ e₂ he₂ elem₁ elem₂ helem₁ helem₂ heq
    obtain ⟨old₁, hold₁, hsame₁⟩ := hpositioned.sid e₁ elem₁ (freed_eq_some.mp helem₁).2
    obtain ⟨old₂, hold₂, hsame₂⟩ := hpositioned.sid e₂ elem₂ (freed_eq_some.mp helem₂).2
    exact hs.sid e₁ (hmem e₁ he₁).1 e₂ (hmem e₂ he₂).1 old₁ old₂ hold₁ hold₂ (hsame₁.trans (heq.trans hsame₂.symm))
  · intro n hn
    have hnone := hpositioned.free n (hs.fresh n hn)
    rw [Option.eq_none_iff_forall_ne_some]
    intro elem helem
    rw [(freed_eq_some.mp helem).2] at hnone
    cases hnone

/-! ## The scan -/

/-- An element of that name has the last index there is. -/
def Exhausted (s : State) (name : List Char) : Prop :=
  ∃ e ∈ s.pelems, ∃ elem, s.elems e = some elem ∧ elem.sid.name = name ∧ elem.sid.index = 4294967295#32

/-- The index that the scan finds is above those of all elements of the name. -/
theorem scan_spec (elems : Nat → Option Elem) (name : List Char) (occupied : Nat → Bool) (l : List Nat)
    (index : BitVec 32) (hlive : ∀ e ∈ l, (elems e).isSome) :
    ∃ found, scan elems name occupied l index = some found ∧ ∀ index', found = some index' →
      (∀ e ∈ l, ∀ elem, elems e = some elem → elem.sid.name = name → occupied e) ∧
      ((∀ e ∈ l, ∀ elem, elems e = some elem → elem.sid.name = name → elem.sid.index ≠ 4294967295#32) →
        index ≤ index' ∧
          ∀ e ∈ l, ∀ elem, elems e = some elem → elem.sid.name = name → elem.sid.index < index') := by
  induction l generalizing index with
  | nil =>
    refine ⟨some index, rfl, fun index' h => ?_⟩
    cases h
    exact ⟨fun _ h => absurd h List.not_mem_nil, fun _ => ⟨BitVec.le_refl _, fun _ h => absurd h List.not_mem_nil⟩⟩
  | cons e rest ih =>
    obtain ⟨elem, helem⟩ := Option.isSome_iff_exists.mp (hlive e List.mem_cons_self)
    have ih := fun index => ih index fun e' he' => hlive e' (List.mem_cons_of_mem _ he')
    unfold scan
    rw [helem, Option.bind_some]
    by_cases hname : elem.sid.name = name
    · rw [if_pos hname]
      dsimp only
      by_cases hoccupied : occupied e
      · rw [if_pos hoccupied]
        obtain ⟨found, hscan, hfound⟩ := ih (if index ≤ elem.sid.index then elem.sid.index + 1 else index)
        refine ⟨found, hscan, fun index' h => ?_⟩
        obtain ⟨hall, habove⟩ := hfound index' h
        refine ⟨fun e' he' elem' helem' hname' => ?_, fun hroom => ?_⟩
        · rcases List.mem_cons.mp he' with rfl | he'
          · exact hoccupied
          · exact hall e' he' elem' helem' hname'
        · obtain ⟨hle, hbelow⟩ := habove fun e' he' => hroom e' (List.mem_cons_of_mem _ he')
          have hmax := hroom e List.mem_cons_self elem helem hname
          have hnext : index ≤ index' ∧ elem.sid.index < index' := by
            split at hle <;> bv_omega
          refine ⟨hnext.1, fun e' he' elem' helem' hname' => ?_⟩
          rcases List.mem_cons.mp he' with rfl | he'
          · obtain rfl : elem = elem' := Option.some.inj (helem.symm.trans helem')
            exact hnext.2
          · exact hbelow e' he' elem' helem' hname'
      · rw [if_neg hoccupied]
        exact ⟨none, rfl, fun _ h => by cases h⟩
    · rw [if_neg hname]
      obtain ⟨found, hscan, hfound⟩ := ih index
      refine ⟨found, hscan, fun index' h => ?_⟩
      obtain ⟨hall, habove⟩ := hfound index' h
      have hskip (P : Nat → Elem → Prop)
          (hrest : ∀ e' ∈ rest, ∀ elem', elems e' = some elem' → elem'.sid.name = name → P e' elem') :
          ∀ e' ∈ e :: rest, ∀ elem', elems e' = some elem' → elem'.sid.name = name → P e' elem' := by
        intro e' he' elem' helem' hname'
        rcases List.mem_cons.mp he' with rfl | he'
        · obtain rfl : elem = elem' := Option.some.inj (helem.symm.trans helem')
          exact absurd hname' hname
        · exact hrest e' he' elem' helem' hname'
      refine ⟨hskip (fun e' _ => occupied e') hall, fun hroom => ?_⟩
      obtain ⟨hle, hbelow⟩ := habove fun e' he' => hroom e' (List.mem_cons_of_mem _ he')
      exact ⟨hle, hskip (fun _ elem' => elem'.sid.index < index') hbelow⟩

def ids (s : SndMixer) (e : Nat) : Option Elem :=
  (s.melems e).map fun elem => { sid := { name := elem.name, index := elem.index }, index := 0 }

/-! ## One step -/

/-- No new element is added while one of its name has the last index. -/
def Indexed (s : State) : Op → Prop
  | .add name occupied alloc_elem realloc _ =>
    alloc_elem → (s.pelems.length = s.alloc → realloc) →
      (∀ e ∈ s.pelems, ∀ elem, s.elems e = some elem → elem.sid.name = (decode_name name.val).name →
        occupied e) →
      ¬ Exhausted s (decode_name name.val).name
  | _ => True

/-- The new element has an id of its own, if it gets into the list. -/
theorem add_mixer_elem_spec (s : State) (hs : Inv s) (realloc : Bool) (compare : Sorter) (elem : Elem)
    (hnew : (s.pelems.length = s.alloc → realloc) →
      ∀ e ∈ s.pelems, ∀ old, s.elems e = some old → old.sid ≠ elem.sid) :
    ∃ s', add_mixer_elem realloc compare
        { s with elems := Function.update s.elems s.next (some elem), next := s.next + 1 } s.next = some s' ∧
      Inv s' := by
  have hfree := hs.fresh s.next (le_refl _)
  have hother (e : Nat) (he : e ∈ s.pelems) : e ≠ s.next := by
    obtain ⟨old, hold⟩ := Option.isSome_iff_exists.mp (hs.live s e he)
    exact ne_of_free hfree hold
  have hfresh (n : Nat) (hn : s.next + 1 ≤ n) : Function.update s.elems s.next (some elem) n = none := by
    rw [Function.update_of_ne (by omega)]
    exact hs.fresh n (by omega)
  unfold add_mixer_elem
  split
  · refine ⟨_, rfl, hs.bound, hs.nodup, fun i e hi => ?_, fun e he e' he' old old' hget hget' => ?_, hfresh⟩
    · obtain ⟨old, hold, hindex⟩ := hs.index i e hi
      exact ⟨old, stored_of_free hfree hold, hindex⟩
    · obtain ⟨-, hget⟩ := (stored_eq_some.mp hget).resolve_left fun h => hother e he h.1
      obtain ⟨-, hget'⟩ := (stored_eq_some.mp hget').resolve_left fun h => hother e' he' h.1
      exact hs.sid e he e' he' old old' hget hget'
  · rename_i hfull
    have hdiffers := hnew fun h => by_contra fun h' => hfull ⟨h, h'⟩
    apply sort_spec
    refine ⟨?_, ?_, ?_, ?_, hfresh⟩
    · have hbound := hs.bound
      simp only [List.length_append, List.length_singleton]
      split <;> omega
    · refine List.nodup_append.mpr ⟨hs.nodup, List.nodup_singleton _, fun a ha b hb heq => hother a ha ?_⟩
      rw [heq, List.mem_singleton.mp hb]
    · intro e he
      rcases List.mem_append.mp he with he | he
      · obtain ⟨old, hold⟩ := Option.isSome_iff_exists.mp (hs.live s e he)
        exact Option.isSome_iff_exists.mpr ⟨old, stored_of_free hfree hold⟩
      · rw [List.mem_singleton.mp he]
        exact Option.isSome_iff_exists.mpr ⟨elem, Function.update_self _ _ _⟩
    · have hlisted (e : Nat) (he : e ∈ s.pelems ++ [s.next]) (hne : e ≠ s.next) : e ∈ s.pelems :=
        (List.mem_append.mp he).resolve_right fun h => hne (List.mem_singleton.mp h)
      intro e he e' he' old old' hget hget' heq
      rcases stored_eq_some.mp hget with ⟨rfl, rfl⟩ | ⟨hne, hget⟩ <;>
        rcases stored_eq_some.mp hget' with ⟨rfl, rfl⟩ | ⟨hne', hget'⟩
      · rfl
      · exact absurd heq.symm (hdiffers e' (hlisted e' he' hne') old' hget')
      · exact absurd heq (hdiffers e (hlisted e he hne) old hget)
      · exact hs.sid e (hlisted e he hne) e' (hlisted e' he' hne') old old' hget hget' heq

theorem add_spec (s : State) (hs : Inv s) (name : ControlName) (occupied : Nat → Bool)
    (alloc_elem realloc : Bool) (compare : Sorter)
    (hindexed : Indexed s (.add name occupied alloc_elem realloc compare)) :
    ∃ s', step s (.add name occupied alloc_elem realloc compare) = some s' ∧ Inv s' := by
  have hlength := decode_name_length name.val 59 (by omega) (by have := name.2; omega)
  set d := (decode_name name.val).name with hd
  obtain ⟨found, hscan, hfound⟩ := scan_spec s.elems d occupied s.pelems 0#32 (hs.live s)
  unfold step add_simple_element
  dsimp only
  rw [← hd, hscan, Option.bind_some]
  cases found with
  | none => exact ⟨s, rfl, hs⟩
  | some index =>
    dsimp only
    split
    · exact ⟨s, rfl, hs⟩
    · rename_i halloc
      obtain ⟨hall, habove⟩ := hfound index rfl
      apply add_mixer_elem_spec s hs
      intro hrealloc e he old hget heq
      have hroom := hindexed (not_not.mp halloc) hrealloc hall
      obtain ⟨-, hbelow⟩ := habove fun e he elem helem hname hmax =>
        hroom ⟨e, he, elem, helem, hname, hmax⟩
      have hlt := hbelow e he old hget (by rw [heq]; exact List.take_of_length_le hlength)
      rw [heq] at hlt
      exact absurd hlt (BitVec.lt_irrefl _)

theorem step_spec (s : State) (op : Op) (hs : Inv s) (hindexed : Indexed s op) :
    ∃ s', step s op = some s' ∧ Inv s' := by
  cases op with
  | add name occupied alloc_elem realloc compare =>
    exact add_spec s hs name occupied alloc_elem realloc compare hindexed
  | remove e =>
    unfold step
    dsimp only
    split
    · rename_i he
      exact remove_spec s hs e he
    · exact ⟨s, rfl, hs⟩
  | sort compare => exact sort_spec compare s (hs.unsorted s)

/-! ## What the list shows -/

/-- The list is what its readers take it for. -/
structure Represents (s : State) : Prop where
  bound : s.pelems.length ≤ s.alloc
  nodup : s.pelems.Nodup
  index : ∀ i e, s.pelems[i]? = some e → ∃ elem, s.elems e = some elem ∧ elem.index = i
  find : ∀ e ∈ s.pelems, ∀ elem, s.elems e = some elem →
    snd_mixer_find_selem s elem.sid s.pelems = some (some e)
  visit : visit s s.pelems.length s.pelems.head? = some s.pelems
  first : ∀ e, s.pelems.head? = some e → snd_mixer_elem_prev s e = some none
  prev : ∀ e ∈ s.pelems, ∀ e' ∈ s.pelems,
    snd_mixer_elem_next s e = some (some e') ↔ snd_mixer_elem_prev s e' = some (some e)

theorem next_spec (s : State) (hs : Inv s) (i e : Nat) (hi : s.pelems[i]? = some e) :
    snd_mixer_elem_next s e = some s.pelems[i + 1]? := by
  obtain ⟨elem, helem, hindex⟩ := hs.index i e hi
  obtain ⟨hlt, -⟩ := List.getElem?_eq_some_iff.mp hi
  unfold snd_mixer_elem_next
  rw [helem, Option.bind_some, hindex]
  split
  · rename_i hlast
    rw [List.getElem?_eq_none (by omega)]
  · rename_i hnotlast
    rw [List.getElem?_eq_getElem (by omega)]
    rfl

theorem prev_spec (s : State) (hs : Inv s) (i e : Nat) (hi : s.pelems[i]? = some e) :
    snd_mixer_elem_prev s e = some (if i = 0 then none else s.pelems[i - 1]?) := by
  obtain ⟨elem, helem, hindex⟩ := hs.index i e hi
  obtain ⟨hlt, -⟩ := List.getElem?_eq_some_iff.mp hi
  unfold snd_mixer_elem_prev
  rw [helem, Option.bind_some, hindex]
  split
  · rfl
  · rw [List.getElem?_eq_getElem (by omega)]
    rfl

theorem visit_spec (s : State) (hs : Inv s) (fuel i : Nat) (hfuel : s.pelems.length ≤ i + fuel) :
    visit s fuel s.pelems[i]? = some (s.pelems.drop i) := by
  induction fuel generalizing i with
  | zero =>
    rw [List.getElem?_eq_none (by omega), List.drop_eq_nil_of_le (by omega)]
    rfl
  | succ fuel ih =>
    by_cases hlt : i < s.pelems.length
    · have hi := List.getElem?_eq_getElem hlt
      rw [hi, List.drop_eq_getElem_cons hlt]
      unfold visit
      rw [next_spec s hs i _ hi, Option.bind_some, ih (i + 1) (by omega)]
      rfl
    · rw [List.getElem?_eq_none (by omega), List.drop_eq_nil_of_le (by omega)]
      rfl

theorem find_spec (s : State) (hs : Inv s) (e : Nat) (elem : Elem) (helem : s.elems e = some elem)
    (l : List Nat) (hsub : ∀ e' ∈ l, e' ∈ s.pelems) (he : e ∈ l) :
    snd_mixer_find_selem s elem.sid l = some (some e) := by
  induction l with
  | nil => exact absurd he List.not_mem_nil
  | cons p rest ih =>
    obtain ⟨found, hfound⟩ := Option.isSome_iff_exists.mp (hs.live s p (hsub p List.mem_cons_self))
    unfold snd_mixer_find_selem
    rw [hfound, Option.bind_some]
    split
    · rename_i heq
      rw [hs.sid p (hsub p List.mem_cons_self) e (hsub e he) found elem hfound helem heq]
    · rename_i hne
      rcases List.mem_cons.mp he with rfl | he
      · obtain rfl := Option.some.inj (hfound.symm.trans helem)
        exact absurd rfl hne
      · exact ih (fun e' h => hsub e' (List.mem_cons_of_mem _ h)) he

theorem Inv.represents (s : State) (hs : Inv s) : Represents s where
  bound := hs.bound
  nodup := hs.nodup
  index := hs.index
  find := fun e he elem helem => find_spec s hs e elem helem s.pelems (fun _ h => h) he
  visit := by
    rw [List.head?_eq_getElem?]
    exact visit_spec s hs _ 0 (by omega)
  first := by
    intro e he
    rw [List.head?_eq_getElem?] at he
    exact prev_spec s hs 0 e he
  prev := by
    intro e he e' he'
    obtain ⟨i, hi⟩ := List.mem_iff_getElem?.mp he
    obtain ⟨j, hj⟩ := List.mem_iff_getElem?.mp he'
    rw [next_spec s hs i e hi, prev_spec s hs j e' hj, Option.some.injEq, Option.some.injEq]
    obtain ⟨hilt, -⟩ := List.getElem?_eq_some_iff.mp hi
    obtain ⟨hjlt, -⟩ := List.getElem?_eq_some_iff.mp hj
    constructor
    · intro hnext
      obtain rfl : j = i + 1 := (List.getElem?_inj hjlt hs.nodup).mp (hj.trans hnext.symm)
      rw [if_neg (Nat.succ_ne_zero i)]
      exact hi
    · intro hprev
      split at hprev
      · cases hprev
      · have hij : i = j - 1 := (List.getElem?_inj hilt hs.nodup).mp (hi.trans hprev.symm)
        rw [show i + 1 = j by omega]
        exact hj

theorem inv_opened : Inv opened where
  bound := le_refl _
  nodup := List.nodup_nil
  index := fun i e h => by simp [opened] at h
  sid := fun e h => absurd h List.not_mem_nil
  fresh := fun _ _ => rfl

def control_X : ControlName := ⟨['X'], by decide⟩

/-- A control for which every element is occupied, and everything works. -/
def add_X (compare : Sorter) : Op := .add control_X (fun _ => true) true true compare

theorem decode_X : (decode_name control_X.val).name = ['X'] := by decide +kernel

def reversed : Sorter := ⟨List.reverse, List.reverse_perm⟩

/-- One element of the name is left, with the index `n`. -/
def one_left (n : Nat) : State :=
  { elems := Function.update (fun _ => none) n (some { sid := ⟨['X'], BitVec.ofNat 32 n⟩, index := 0 })
    pelems := [n], alloc := 32, next := n + 1 }

theorem add_one_left (n : Nat) (compare : Sorter) :
    step (one_left n) (add_X compare) =
      snd_mixer_sort compare
        { elems := Function.update (one_left n).elems (n + 1)
            (some { sid := ⟨['X'], BitVec.ofNat 32 (n + 1)⟩, index := 0 })
          pelems := [n, n + 1], alloc := 32, next := n + 2 } := by
  have hscan : scan (one_left n).elems ['X'] (fun _ => true) [n] 0#32 =
      some (some (BitVec.ofNat 32 (n + 1))) := by
    simp [scan, one_left, BitVec.ofNat_add]
  unfold step add_X add_simple_element
  dsimp only
  rw [decode_X, show (one_left n).pelems = [n] from rfl, hscan]
  rfl

theorem next_left (n : Nat) :
    ((step (one_left n) (add_X unsorted)).bind fun s => step s (.remove n)) = some (one_left (n + 1)) := by
  rw [add_one_left]
  simp [snd_mixer_sort, unsorted, set_index, one_left, step, remove_mixer_elem, remove_loop]
  funext m
  simp only [Function.update_apply]
  split_ifs <;> first | rfl | omega

def rounds (n : Nat) : List Op := (List.range n).flatMap fun k => [add_X unsorted, .remove k]

theorem run_rounds (n : Nat) : run step (one_left 0) (rounds n) = some (one_left n) := by
  induction n with
  | zero => rfl
  | succ n ih =>
    unfold rounds at ih ⊢
    rw [List.range_succ, List.flatMap_append, run_append, ih, Option.bind_some, List.flatMap_singleton,
      run_cons]
    have hround := next_left n
    obtain ⟨s, hadd, hremove⟩ := Option.bind_eq_some_iff.mp hround
    rw [hadd, Option.bind_some, run_cons, hremove]
    rfl

/-- With the last index in use, the one after it is given twice. -/
theorem twice (n : Nat) (hn : BitVec.ofNat 32 n = 4294967295#32) :
    ∃ t, ((step (one_left n) (add_X reversed)).bind fun s => step s (add_X unsorted)) = some t ∧
      t.pelems = [n + 1, n, n + 2] ∧ (t.elems (n + 1)).map (·.sid) = some ⟨['X'], 0#32⟩ ∧
      (t.elems (n + 2)).map (·.sid) = some ⟨['X'], 0#32⟩ := by
  have hnext : BitVec.ofNat 32 (n + 1) = 0#32 := by
    rw [BitVec.ofNat_add, hn]
    rfl
  rw [add_one_left, hnext]
  simp [snd_mixer_sort, reversed, unsorted, set_index, one_left, step, add_X, add_simple_element, decode_X, scan,
    add_mixer_elem, hn]

/-- The runs that use up the indices, and sort the element with the last one behind the next. -/
def wrapping : List Op := add_X unsorted :: rounds 4294967295 ++ [add_X reversed, add_X unsorted]

end Salsa.Mixer.Pelems
