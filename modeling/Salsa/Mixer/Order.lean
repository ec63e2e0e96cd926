import Salsa.Mixer.Sorting

/-!
# The order of the mixer elements

A comparison that the user installs governs the list only as long as nothing is sorted with it. The condition says which
calls leave it at that.
-/

namespace Salsa.Mixer.Order

open Cells Comparison Ctl Run
open Hctl (SND_CTL_EVENT_MASK_REMOVE SND_CTL_EVENT_MASK_VALUE SND_CTL_EVENT_MASK_INFO)

/-! ## What the property says -/

/-- The comparison is called with mixer elements of the list. -/
def Application.ToListed (a : Application) : Prop :=
  ∃ e e', a.left = .elem e ∧ a.right = .elem e' ∧ e ∈ a.pelems ∧ e' ∈ a.pelems

/-- No element comes before one that is smaller. -/
def InOrder (compare : SndMixerCompare) (s : SndMixer) : Prop :=
  s.pelems.Pairwise fun e e' => ∀ elem elem', s.melems e = some elem → s.melems e' = some elem' →
    (compare.compare (e, elem) (e', elem')).toInt ≤ 0

def Faithful (compare : SndMixerCompare) (s : State) : Prop :=
  ∀ a ∈ s.applied, a.compare = compare → a.ToListed

/-- The comparison that is installed was called with nothing but elements of the list, and these are in its order. -/
def Governs (s : State) : Prop :=
  ∀ compare, s.compare = some compare → Faithful compare s ∧ InOrder compare s.mixer

/-! ## The condition -/

/-- The control makes a new mixer element, and there is room for it. -/
def Lists (w : World) (s : SndMixer) (name : List Char) : Prop :=
  ∃ caps type kind index, creates w (decode_name name).dir = some (caps, type, kind) ∧
    find_elem s (decode_name name).name type s.pelems 0#32 = some (.inr index) ∧ w.alloc_elem ∧ has_room w s

/-- The mixer with the caps and the slots that the control gives an element that is there. -/
def joined (w : World) (s : SndMixer) (name : List Char) : SndMixer :=
  match creates w (decode_name name).dir with
  | none => s
  | some (caps, type, _) =>
    match find_elem s (decode_name name).name type s.pelems 0#32 with
    | some (.inl e) =>
      { s with
        melems := Function.update s.melems e
          ((s.melems e).map fun elem => elem.add_cap caps type s.next w.count) }
    | _ => s

/-- The mixer element of the control, without the item of the control. -/
def leaves (s : SndMixer) (h : Nat) : Option (Nat × SndMixerElem) :=
  ((s.helems h).bind fun he => he.private_data).bind fun e =>
    (s.melems e).bind fun elem =>
      (find_item s elem h (List.finRange 5)).bind fun found => found.map fun (i, _) => (e, elem.clear_slot i)

def cleared (s : SndMixer) (h : Nat) : SndMixer :=
  match leaves s h with
  | none => s
  | some (e, elem) => { s with melems := Function.update s.melems e (some elem) }

/-- A new element comes into an empty list only, and what an element gains keeps it in its place. -/
def AddsInOrder (compare : SndMixerCompare) (w : World) (s : SndMixer) (name : List Char) : Prop :=
  (Lists w s name → s.pelems = []) ∧ InOrder compare (joined w s name)

/-- With the comparison installed, the event keeps the order without a sort of two elements. -/
def KeepsOrder (compare : SndMixerCompare) (s : SndMixer) : Act → Prop
  | .add id w => id.iface = SND_CTL_ELEM_IFACE_MIXER → AddsInOrder compare w (listed s id true) id.name
  | .notify h mask w =>
    mask &&& SND_CTL_EVENT_MASK_INFO ≠ 0#32 →
      ∀ he e elem, s.helems h = some he → he.callback → he.private_data = some e → s.melems e = some elem →
        AddsInOrder compare w (cleared s h) he.id.name ∧
          (0 ≤ w.elem_throw_event SND_CTL_EVENT_MASK_INFO → s.pelems.length ≤ 1)
  | .remove h w =>
    0 ≤ w.elem_throw_event SND_CTL_EVENT_MASK_REMOVE →
      ∀ he e elem, s.helems h = some he → he.callback → leaves s h = some (e, elem) →
        (∃ i, (elem.items i).isSome) → InOrder compare (cleared s h)

/-- A comparison is installed when the list is in its order already, and was not misused before. -/
def Quiet (s : State) : Call → Prop
  | .set_compare compare => ∀ c, compare = some c → Faithful c s ∧ InOrder c s.mixer
  | .event act _ => ∀ c, s.compare = some c → KeepsOrder c s.mixer act

/-! ## Lists that are in order -/

/-- The addresses in the list were handed out. -/
def Known (s : SndMixer) : Prop := ∀ e ∈ s.pelems, e < s.next

/-- The lists are the same, and so are the elements in them. -/
def Alike (s t : SndMixer) : Prop := t.pelems = s.pelems ∧ ∀ e ∈ s.pelems, t.melems e = s.melems e

theorem InOrder.congr (compare : SndMixerCompare) (s t : SndMixer) (h : Alike s t) :
    InOrder compare t ↔ InOrder compare s := by
  unfold InOrder
  rw [h.1]
  refine List.Pairwise.iff_of_mem fun {e e'} he he' => ?_
  rw [h.2 e he, h.2 e' he']

theorem InOrder.of_short (compare : SndMixerCompare) (s : SndMixer) (h : s.pelems.length ≤ 1) :
    InOrder compare s := by
  unfold InOrder
  match s.pelems, h with
  | [], _ => exact .nil
  | [e], _ => exact List.pairwise_singleton _ _

section Sorting

variable (w : World) (q : Compared) (s : State)

theorem known_sort (hs : Known s.mixer) : Known (snd_mixer_sort w q s).mixer := by
  unfold snd_mixer_sort
  split
  · exact hs
  · exact fun e he => hs e ((w.compare.perm _).mem_iff.mp he)

variable {w q s} in
/-- A sort of two elements or more calls the comparison with slots. -/
theorem governs_sort_iff {compare : SndMixerCompare} (hcompare : s.compare = some compare) :
    Governs (snd_mixer_sort w q s) ↔ Faithful compare s ∧ s.mixer.pelems.length ≤ 1 := by
  have hsort : snd_mixer_sort w q s =
      { s with
        mixer := Mixer.snd_mixer_sort w s.mixer
        applied := s.applied ++ (q.pairs s.mixer.pelems).map fun p =>
          { compare, left := .slot p.1, right := .slot p.2, pelems := s.mixer.pelems } } := by
    unfold snd_mixer_sort
    rw [hcompare]
  rw [hsort]
  constructor
  · intro hgoverns
    have hfaithful := (hgoverns compare hcompare).1
    refine ⟨fun a ha => hfaithful a (List.mem_append_left _ ha), ?_⟩
    by_contra hlong
    obtain ⟨p, hp⟩ := List.exists_mem_of_ne_nil _ (q.some s.mixer.pelems (by omega))
    obtain ⟨e, e', hleft, -⟩ := hfaithful _ (List.mem_append_right _ (List.mem_map_of_mem hp)) rfl
    cases hleft
  · rintro ⟨hfaithful, hshort⟩ c hc
    obtain rfl : compare = c := Option.some.inj (hcompare.symm.trans hc)
    have hnone : q.pairs s.mixer.pelems = [] := by
      rw [List.eq_nil_iff_forall_not_mem]
      intro p hp
      have hslots := q.slots _ p hp
      omega
    refine ⟨fun a ha => ?_, InOrder.of_short _ _ ?_⟩
    · dsimp only at ha
      rw [hnone, List.map_nil, List.append_nil] at ha
      exact hfaithful a ha
    · exact (w.compare.perm _).length_eq.trans_le hshort

theorem length_sort : (snd_mixer_sort w q s).mixer.pelems.length = s.mixer.pelems.length := by
  unfold snd_mixer_sort
  split
  · rfl
  · exact (w.compare.perm _).length_eq

end Sorting

theorem add_mixer_elem_full (w : World) (q : Compared) (s : State) (e : Nat)
    (h : s.mixer.pelems.length = s.mixer.alloc ∧ ¬ w.realloc) : (add_mixer_elem w q s e).2 = s := by
  unfold add_mixer_elem
  rw [if_pos h]

theorem add_mixer_elem_sorts (w : World) (q : Compared) (s : State) (e : Nat)
    (h : ¬ (s.mixer.pelems.length = s.mixer.alloc ∧ ¬ w.realloc)) :
    ∃ alloc, (add_mixer_elem w q s e).2 =
      snd_mixer_sort w q { s with mixer := { s.mixer with pelems := s.mixer.pelems ++ [e], alloc } } := by
  unfold add_mixer_elem
  rw [if_neg h]
  exact ⟨_, rfl⟩

theorem governs_iff_of {s : State} {compare : SndMixerCompare} (hcompare : s.compare = some compare) :
    Governs s ↔ Faithful compare s ∧ InOrder compare s.mixer := by
  unfold Governs
  rw [hcompare]
  simp

theorem Faithful.congr {s t : State} {compare : SndMixerCompare} (hs : Faithful compare s)
    (h : t.applied = s.applied) : Faithful compare t := by
  unfold Faithful
  rw [h]
  exact hs

theorem joined_pelems (w : World) (s : SndMixer) (name : List Char) : (joined w s name).pelems = s.pelems := by
  unfold joined
  split
  · rfl
  · split <;> rfl

/-- The new element is sorted in, or the list stays as it is. -/
structure Added (w : World) (q : Compared) (s t : State) (name : List Char) : Prop where
  compare : t.compare = s.compare
  known : Known t.mixer
  lists : Lists w s.mixer name →
    ∃ u, u.compare = s.compare ∧ u.applied = s.applied ∧ u.mixer.pelems.length = s.mixer.pelems.length + 1 ∧
      t = snd_mixer_sort w q u
  joins : ¬ Lists w s.mixer name → t.applied = s.applied ∧ Alike (joined w s.mixer name) t.mixer

theorem not_lists_of_creates (w : World) (s : SndMixer) (name : List Char)
    (h : creates w (decode_name name).dir = none) : ¬ Lists w s name := by
  rintro ⟨caps, type, kind, index, hcreates, -⟩
  rw [h] at hcreates
  cases hcreates

theorem lists_iff (w : World) (s : SndMixer) (name : List Char) (caps : BitVec 32) (type : Fin 5) (kind : Kind)
    (place : Nat ⊕ BitVec 32) (hcreates : creates w (decode_name name).dir = some (caps, type, kind))
    (hplace : find_elem s (decode_name name).name type s.pelems 0#32 = some place) :
    Lists w s name ↔ place.isRight ∧ w.alloc_elem ∧ has_room w s := by
  unfold Lists
  rw [hcreates]
  constructor
  · rintro ⟨caps', type', kind', index, heq, hfind, hrest⟩
    cases heq
    obtain rfl : place = .inr index := Option.some.inj (hplace.symm.trans hfind)
    exact ⟨rfl, hrest⟩
  · rintro ⟨hright, hrest⟩
    obtain ⟨index, rfl⟩ := Sum.isRight_iff.mp hright
    exact ⟨caps, type, kind, index, rfl, hplace, hrest⟩

theorem joined_new (w : World) (s : SndMixer) (name : List Char) (caps : BitVec 32) (type : Fin 5) (kind : Kind)
    (index : BitVec 32) (hcreates : creates w (decode_name name).dir = some (caps, type, kind))
    (hplace : find_elem s (decode_name name).name type s.pelems 0#32 = some (.inr index)) : joined w s name = s := by
  unfold joined
  rw [hcreates]
  dsimp only
  rw [hplace]

theorem added (w : World) (q : Compared) (s t : State) (h : Nat) (he : SndHctlElem) (err : Int)
    (hknown : Known s.mixer) (hhe : s.mixer.helems h = some he)
    (hadd : add_simple_element w q s h = some (err, t)) : Added w q s t he.id.name := by
  rcases add_cases w q s t h he err hhe hadd with ⟨hcreates, rfl⟩ | ⟨caps, type, kind, hcreates, hcases⟩
  · have hjoined : joined w t.mixer he.id.name = t.mixer := by
      unfold joined
      rw [hcreates]
    refine ⟨rfl, hknown, fun hlists => absurd hlists (not_lists_of_creates w t.mixer _ hcreates),
      fun _ => ⟨rfl, ?_⟩⟩
    rw [hjoined]
    exact ⟨rfl, fun _ _ => rfl⟩
  · rcases hcases with ⟨e, elem, hplace, helem, rfl⟩ | ⟨index, hplace, ⟨halloc, rfl⟩ | ⟨halloc, rfl⟩⟩
    · have hnot := mt (lists_iff w s.mixer _ caps type kind _ hcreates hplace).mp fun h => by cases h.1
      refine ⟨rfl, fun e' he' => Nat.lt_succ_of_lt (hknown e' he'), fun hlists => absurd hlists hnot,
        fun _ => ⟨rfl, ?_⟩⟩
      unfold joined
      rw [hcreates]
      dsimp only
      rw [hplace]
      dsimp only
      rw [helem]
      exact ⟨rfl, fun _ _ => rfl⟩
    · have hnot := mt (lists_iff w s.mixer _ caps type kind _ hcreates hplace).mp fun h => halloc h.2.1
      refine ⟨rfl, fun e' he' => Nat.lt_succ_of_lt (hknown e' he'), fun hlists => absurd hlists hnot,
        fun _ => ⟨rfl, ?_⟩⟩
      rw [joined_new w s.mixer _ caps type kind index hcreates hplace]
      exact ⟨rfl, fun _ _ => rfl⟩
    · have hlists := lists_iff w s.mixer _ caps type kind _ hcreates hplace
      have hnext (e : Nat) (he : e ∈ s.mixer.pelems ++ [s.mixer.next + 1]) : e < s.mixer.next + 2 := by
        rcases List.mem_append.mp he with he | he
        · exact Nat.lt_add_right 2 (hknown e he)
        · rw [List.mem_singleton.mp he]
          omega
      have halike : Alike s.mixer (with_elem w s.mixer h (decode_name he.id.name).name index caps type kind) := by
        refine ⟨rfl, fun e he => Function.update_of_ne ?_ _ _⟩
        have := hknown e he
        omega
      set m := with_elem w s.mixer h (decode_name he.id.name).name index caps type kind
      by_cases hfull : s.mixer.pelems.length = s.mixer.alloc ∧ ¬ w.realloc
      · have hnot := mt hlists.mp fun h => hfull.2 (h.2.2 hfull.1)
        rw [add_mixer_elem_full w q { s with mixer := m } _ hfull]
        refine ⟨rfl, fun e he => hnext e (List.mem_append_left _ he), fun h => absurd h hnot, fun _ => ⟨rfl, ?_⟩⟩
        rw [joined_new w s.mixer _ caps type kind index hcreates hplace]
        exact halike
      · have hroom : has_room w s.mixer := fun hlength => by_contra fun hrealloc => hfull ⟨hlength, hrealloc⟩
        obtain ⟨alloc, hsort⟩ := add_mixer_elem_sorts w q { s with mixer := m } (s.mixer.next + 1) hfull
        rw [hsort]
        exact ⟨sort_compare _ _ _, known_sort _ _ _ fun e he => hnext e he,
          fun _ => ⟨{ s with mixer := { m with pelems := m.pelems ++ [s.mixer.next + 1], alloc } }, rfl, rfl,
            List.length_append, rfl⟩,
          fun h => absurd (hlists.mpr ⟨rfl, halloc, hroom⟩) h⟩

section Added

variable {w : World} {q : Compared} {s t : State} {name : List Char} (h : Added w q s t name)
  {compare : SndMixerCompare} (hcompare : s.compare = some compare) (hfaithful : Faithful compare s)

include h hcompare hfaithful

theorem Added.governs_iff : Governs t ↔ AddsInOrder compare w s.mixer name := by
  have hpelems := joined_pelems w s.mixer name
  unfold AddsInOrder
  by_cases hlists : Lists w s.mixer name
  · obtain ⟨u, hcompare', happlied, hlength, rfl⟩ := h.lists hlists
    rw [governs_sort_iff (hcompare'.trans hcompare), hlength]
    constructor
    · rintro ⟨-, hshort⟩
      refine ⟨fun _ => List.eq_nil_of_length_eq_zero (by omega), InOrder.of_short _ _ ?_⟩
      rw [hpelems]
      omega
    · rintro ⟨hempty, -⟩
      rw [hempty hlists]
      exact ⟨hfaithful.congr happlied, le_refl _⟩
  · obtain ⟨happlied, halike⟩ := h.joins hlists
    rw [governs_iff_of (h.compare.trans hcompare), InOrder.congr compare _ _ halike]
    exact and_congr_left fun _ => iff_of_true (hfaithful.congr happlied) fun hmem => absurd hmem hlists

/-- Another sort changes nothing as long as there is one element at most. -/
theorem Added.sorted_iff : Governs (snd_mixer_sort w q t) ↔
    AddsInOrder compare w s.mixer name ∧ s.mixer.pelems.length ≤ 1 := by
  have hpelems := joined_pelems w s.mixer name
  rw [governs_sort_iff (h.compare.trans hcompare), ← h.governs_iff hcompare hfaithful,
    governs_iff_of (h.compare.trans hcompare)]
  have hlength : (Faithful compare t ∧ InOrder compare t.mixer → s.mixer.pelems.length ≤ 1 →
      t.mixer.pelems.length ≤ 1) ∧ s.mixer.pelems.length ≤ t.mixer.pelems.length := by
    by_cases hlists : Lists w s.mixer name
    · obtain ⟨u, hcompare', happlied, hlength, rfl⟩ := h.lists hlists
      rw [← governs_iff_of (h.compare.trans hcompare), governs_sort_iff (hcompare'.trans hcompare), length_sort,
        hlength]
      exact ⟨fun hshort _ => hshort.2, Nat.le_succ _⟩
    · obtain ⟨-, halike⟩ := h.joins hlists
      rw [halike.1, hpelems]
      exact ⟨fun _ hshort => hshort, le_refl _⟩
  constructor
  · rintro ⟨hf, hshort⟩
    exact ⟨⟨hf, InOrder.of_short _ _ hshort⟩, hlength.2.trans hshort⟩
  · rintro ⟨hgoverns, hshort⟩
    exact ⟨hgoverns.1, hlength.1 hgoverns hshort⟩

end Added

/-! ## A removal -/

/-- The element without the item is in its place still, or out of the list when that was its last item. -/
theorem remove_cases (s m : SndMixer) (h : Nat) (remove_mixer : Bool) (err : Int)
    (hremove : remove_simple_element s h remove_mixer = some (err, m)) :
    m = { cleared s h with items := m.items } ∧
        (remove_mixer → ∀ e elem, leaves s h = some (e, elem) → ∃ i, (elem.items i).isSome) ∨
      remove_mixer ∧ ∃ e elem, leaves s h = some (e, elem) ∧ (¬ ∃ i, (elem.items i).isSome) ∧
        m = { s with
          pelems := s.pelems.erase e, melems := Function.update s.melems e none, items := m.items } := by
  unfold remove_simple_element at hremove
  obtain ⟨e, hdata, hremove⟩ := Option.bind_eq_some_iff.mp hremove
  obtain ⟨elem, helem, hremove⟩ := Option.bind_eq_some_iff.mp hremove
  obtain ⟨found, hfound, hremove⟩ := Option.map_eq_some_iff.mp hremove
  have hleaves : leaves s h = found.map fun (i, _) => (e, elem.clear_slot i) := by
    unfold leaves
    rw [hdata, Option.bind_some, helem, Option.bind_some, hfound, Option.bind_some]
  unfold cleared
  rw [hleaves]
  cases found with
  | none =>
    cases hremove
    exact .inl ⟨rfl, fun _ _ _ h => by cases h⟩
  | some found =>
    obtain ⟨i, it⟩ := found
    dsimp only at hremove
    rw [Option.map_some]
    split at hremove
    · rename_i hmixer
      cases hremove
      exact .inl ⟨rfl, fun h => absurd h hmixer⟩
    · rename_i hmixer
      split at hremove
      · rename_i hany
        cases hremove
        obtain ⟨j, -, hj⟩ := List.any_eq_true.mp hany
        refine .inl ⟨rfl, fun _ e' elem' heq => ?_⟩
        cases heq
        exact ⟨j, hj⟩
      · rename_i hnone
        cases hremove
        refine .inr ⟨not_not.mp hmixer, e, _, rfl, fun ⟨j, hj⟩ => hnone ?_, ?_⟩
        · exact List.any_eq_true.mpr ⟨j, List.mem_finRange j, hj⟩
        · unfold remove_mixer_elem
          rw [Function.update_idem]

/-- Without the element, the others are in order still. -/
theorem InOrder.erase (compare : SndMixerCompare) (s : SndMixer) (e : Nat) (hs : InOrder compare s) :
    InOrder compare { s with pelems := s.pelems.erase e, melems := Function.update s.melems e none } := by
  refine (List.Pairwise.sublist List.erase_sublist hs).imp fun {a b} hab elem elem' ha hb => ?_
  obtain ⟨-, ha⟩ := freed_eq_some.mp ha
  obtain ⟨-, hb⟩ := freed_eq_some.mp hb
  exact hab elem elem' ha hb

/-! ## Events -/

/-- The comparison governs after the event just when the condition is met. -/
structure Handled (s t : State) (keeps : SndMixerCompare → Prop) : Prop where
  compare : t.compare = s.compare
  known : Known t.mixer
  governs : ∀ compare, s.compare = some compare → Faithful compare s → InOrder compare s.mixer →
    (Governs t ↔ keeps compare)

theorem Handled.refl (s : State) (hs : Known s.mixer) (keeps : SndMixerCompare → Prop)
    (hkeeps : ∀ compare, keeps compare) : Handled s s keeps :=
  ⟨rfl, hs, fun compare hcompare hfaithful horder =>
    iff_of_true ((governs_iff_of hcompare).mpr ⟨hfaithful, horder⟩) (hkeeps compare)⟩

/-- The slots are not looked into. -/
theorem addsInOrder_items (compare : SndMixerCompare) (w : World) (s : SndMixer)
    (items : Nat → Option SndSelemItem) (name : List Char) :
    AddsInOrder compare w { s with items } name ↔ AddsInOrder compare w s name := by
  have hfind (type : Fin 5) := find_elem_congr { s with items } s rfl (decode_name name).name type s.pelems 0#32
  have hjoined : joined w { s with items } name = { joined w s name with items } := by
    unfold joined
    simp only [hfind]
    split
    · rfl
    · split <;> rfl
  unfold AddsInOrder Lists
  simp only [hfind, hjoined]
  exact Iff.rfl

theorem cleared_same (s : SndMixer) (h : Nat) :
    (cleared s h).pelems = s.pelems ∧ (cleared s h).helems = s.helems ∧ (cleared s h).next = s.next := by
  unfold cleared
  split <;> exact ⟨rfl, rfl, rfl⟩

theorem handle_info_handled (w : World) (q : Compared) (s t : State) (h e : Nat) (he : SndHctlElem) (err : Int)
    (hs : Known s.mixer) (hhe : s.mixer.helems h = some he) (hinfo : handle_info w q s h e = some (err, t)) :
    Handled s t fun compare => AddsInOrder compare w (cleared s.mixer h) he.id.name ∧
      (0 ≤ w.elem_throw_event SND_CTL_EVENT_MASK_INFO → s.mixer.pelems.length ≤ 1) := by
  unfold handle_info at hinfo
  obtain ⟨⟨err₁, m⟩, hremove, hinfo⟩ := Option.bind_eq_some_iff.mp hinfo
  obtain ⟨⟨err₂, u⟩, hadd, hinfo⟩ := Option.bind_eq_some_iff.mp hinfo
  obtain ⟨elem, -, hinfo⟩ := Option.map_eq_some_iff.mp hinfo
  obtain ⟨hm, -⟩ | ⟨hnot, -⟩ := remove_cases s.mixer m h false err₁ hremove
  · obtain ⟨hpelems, hhelems, hnext⟩ := cleared_same s.mixer h
    have hadded : Added w q { s with mixer := m } u he.id.name := by
      apply added w q _ u h he err₂ _ _ hadd
      · rw [hm]
        unfold Known
        rw [hpelems, hnext]
        exact hs
      · rw [hm]
        exact hhelems ▸ hhe
    have hadds (compare : SndMixerCompare) :
        AddsInOrder compare w m he.id.name ↔ AddsInOrder compare w (cleared s.mixer h) he.id.name := by
      rw [hm]
      exact addsInOrder_items compare w (cleared s.mixer h) m.items he.id.name
    have hlength : m.pelems.length = s.mixer.pelems.length := by rw [hm, hpelems]
    dsimp only at hinfo
    split at hinfo
    · rename_i hneg
      cases hinfo
      refine ⟨hadded.compare, hadded.known, fun compare hcompare hfaithful _ => ?_⟩
      rw [hadded.governs_iff hcompare hfaithful, hadds]
      exact (and_iff_left fun h => absurd hneg (not_lt.mpr h)).symm
    · rename_i hpos
      cases hinfo
      refine ⟨(sort_compare w q u).trans hadded.compare, known_sort w q u hadded.known,
        fun compare hcompare hfaithful _ => ?_⟩
      rw [hadded.sorted_iff hcompare hfaithful, hadds, hlength]
      exact and_congr_right fun _ => ⟨fun hshort _ => hshort, fun hshort => hshort (not_lt.mp hpos)⟩
  · cases hnot

/-- A new value is no business of the list. -/
theorem handle_value_items (w : World) (s m : SndMixer) (h e : Nat) (err : Int)
    (hvalue : handle_value w s h e = some (err, m)) : m = { s with items := m.items } := by
  unfold handle_value update_simple_element at hvalue
  obtain ⟨⟨changed, m'⟩, hupdate, hvalue⟩ := Option.map_eq_some_iff.mp hvalue
  obtain ⟨elem, -, hupdate⟩ := Option.bind_eq_some_iff.mp hupdate
  obtain ⟨found, -, hupdate⟩ := Option.bind_eq_some_iff.mp hupdate
  obtain rfl : m' = m := by
    dsimp only at hvalue
    split at hvalue <;> exact congrArg Prod.snd hvalue
  cases found with
  | none =>
    cases hupdate
    rfl
  | some found =>
    obtain ⟨item, -, hupdate⟩ := Option.map_eq_some_iff.mp hupdate
    split at hupdate <;> cases hupdate <;> rfl

theorem Handled.congr {s t : State} {keeps keeps' : SndMixerCompare → Prop} (h : Handled s t keeps)
    (hkeeps : ∀ compare, keeps compare ↔ keeps' compare) : Handled s t keeps' :=
  ⟨h.compare, h.known, fun compare hcompare hfaithful horder =>
    (h.governs compare hcompare hfaithful horder).trans (hkeeps compare)⟩

theorem Handled.items {s t : State} {keeps : SndMixerCompare → Prop} (h : Handled s t keeps)
    (items : Nat → Option SndSelemItem) : Handled s { t with mixer := { t.mixer with items } } keeps :=
  ⟨h.compare, h.known, h.governs⟩

/-- The mask decides if the event is an information event; any other one moves nothing. -/
theorem masked_handled (w : World) (q : Compared) (s u : State) (h e : Nat) (he : SndHctlElem) (elem : SndMixerElem)
    (err : Int) (mask : BitVec 32) (hs : Known s.mixer) (hhe : s.mixer.helems h = some he) (hcallback : he.callback)
    (hdata : he.private_data = some e) (helem : s.mixer.melems e = some elem)
    (hinfo : (if mask &&& SND_CTL_EVENT_MASK_INFO ≠ 0#32 then handle_info w q s h e else some (0, s)) = some (err, u)) :
    Handled s u fun compare => KeepsOrder compare s.mixer (.notify h mask w) := by
  unfold KeepsOrder
  split at hinfo
  · rename_i hmask
    apply (handle_info_handled w q s u h e he err hs hhe hinfo).congr
    intro compare
    constructor
    · rintro hkeeps - he' - - hhe' - - -
      obtain rfl : he = he' := Option.some.inj (hhe.symm.trans hhe')
      exact hkeeps
    · intro hkeeps
      exact hkeeps hmask he e elem hhe hcallback hdata helem
  · rename_i hmask
    cases hinfo
    exact Handled.refl s hs _ fun _ hmask' => absurd hmask' hmask

theorem notify_handled (w : World) (q : Compared) (s t : State) (h : Nat) (mask : BitVec 32) (hs : Known s.mixer)
    (hstep : step s (.event (.notify h mask w) q) = some t) :
    Handled s t fun compare => KeepsOrder compare s.mixer (.notify h mask w) := by
  unfold step at hstep
  dsimp only at hstep
  cases hhe : s.mixer.helems h with
  | none =>
    rw [hhe] at hstep
    cases hstep
    refine Handled.refl s hs _ fun _ _ he _ _ hhe' => ?_
    rw [hhe] at hhe'
    cases hhe'
  | some he =>
    rw [hhe] at hstep
    dsimp only at hstep
    split at hstep
    · rename_i hcallback
      obtain ⟨⟨err, t'⟩, hhandle, rfl⟩ := Option.map_eq_some_iff.mp hstep
      unfold hctl_elem_event_handler at hhandle
      rw [hhe, Option.bind_some] at hhandle
      cases hdata : he.private_data with
      | none =>
        rw [hdata] at hhandle
        cases hhandle
        refine Handled.refl s hs _ fun _ _ he' e elem hhe' _ hdata' => ?_
        obtain rfl : he = he' := Option.some.inj (hhe.symm.trans hhe')
        rw [hdata] at hdata'
        cases hdata'
      | some e =>
        rw [hdata] at hhandle
        obtain ⟨elem, helem, hhandle⟩ := Option.bind_eq_some_iff.mp hhandle
        rw [if_neg (not_remove mask), info_of_masked] at hhandle
        obtain ⟨⟨err', u⟩, hinfo, hhandle⟩ := Option.bind_eq_some_iff.mp hhandle
        have hhandled := masked_handled w q s u h e he elem err' mask hs hhe hcallback hdata helem hinfo
        dsimp only at hhandle
        split at hhandle
        · cases hhandle
          exact hhandled
        · split at hhandle
          · obtain ⟨⟨err'', m⟩, hvalue, hhandle⟩ := Option.map_eq_some_iff.mp hhandle
            cases hhandle
            rw [handle_value_items w u.mixer m h e err'' hvalue]
            exact hhandled.items m.items
          · cases hhandle
            exact hhandled
    · rename_i hcallback
      cases hstep
      refine Handled.refl s hs _ fun _ _ he' _ _ hhe' hcallback' => ?_
      obtain rfl : he = he' := Option.some.inj (hhe.symm.trans hhe')
      exact absurd hcallback' hcallback

theorem add_handled (w : World) (q : Compared) (s t : State) (id : SndCtlElemId) (hs : Known s.mixer)
    (hstep : step s (.event (.add id w) q) = some t) :
    Handled s t fun compare => KeepsOrder compare s.mixer (.add id w) := by
  obtain ⟨⟨err, t'⟩, hhandle, rfl⟩ := Option.map_eq_some_iff.mp hstep
  unfold hctl_event_handler at hhandle
  rw [listed_self, Option.bind_some] at hhandle
  have hlisted (callback : Bool) : Known (listed s.mixer id callback) := fun e he => Nat.lt_succ_of_lt (hs e he)
  unfold KeepsOrder
  split at hhandle
  · rename_i hiface
    cases hhandle
    have hhandled := Handled.refl s hs (fun compare => id.iface = SND_CTL_ELEM_IFACE_MIXER →
      AddsInOrder compare w (listed s.mixer id true) id.name) fun _ h => absurd h hiface
    exact ⟨rfl, hlisted false, hhandled.governs⟩
  · rename_i hiface
    have hset : { listed s.mixer id false with
          helems := Function.update (listed s.mixer id false).helems s.mixer.next
            (some { id, callback := true, private_data := none }) } = listed s.mixer id true := by
      unfold listed
      rw [Function.update_idem]
    have hadded := added w q { s with mixer := listed s.mixer id true } t' s.mixer.next _ err (hlisted true)
      (listed_self s.mixer id true) (hset ▸ hhandle)
    refine ⟨hadded.compare, hadded.known, fun compare hcompare hfaithful _ => ?_⟩
    rw [hadded.governs_iff hcompare hfaithful]
    exact ⟨fun h _ => h, fun h => h (not_not.mp hiface)⟩

theorem find_item_congr (s t : SndMixer) (h : s.items = t.items) (elem : SndMixerElem) (h' : Nat)
    (l : List (Fin 5)) : find_item s elem h' l = find_item t elem h' l := by
  induction l with
  | nil => rfl
  | cons i rest ih =>
    unfold find_item
    rw [h]
    simp only [ih]

theorem leaves_hctl (s : SndMixer) (hctl : List Nat) (h : Nat) : leaves { s with hctl } h = leaves s h := by
  unfold leaves
  simp only [find_item_congr { s with hctl } s rfl]

theorem cleared_hctl (s : SndMixer) (hctl : List Nat) (h : Nat) :
    cleared { s with hctl } h = { cleared s h with hctl } := by
  unfold cleared
  rw [leaves_hctl]
  cases leaves s h <;> rfl

theorem removed_handled (w : World) (s : State) (m : SndMixer) (h : Nat) (he : SndHctlElem) (err : Int)
    (hs : Known s.mixer) (hhe : s.mixer.helems h = some he) (hcallback : he.callback)
    (hpos : 0 ≤ w.elem_throw_event SND_CTL_EVENT_MASK_REMOVE)
    (hremove : remove_simple_element { s.mixer with hctl := s.mixer.hctl.erase h } h true = some (err, m)) :
    Handled s { s with mixer := m } fun compare => KeepsOrder compare s.mixer (.remove h w) := by
  unfold KeepsOrder
  rcases remove_cases _ m h true err hremove with ⟨hm, hleft⟩ | ⟨-, e, elem, hleaves, hnone, hm⟩
  · rw [cleared_hctl] at hm
    obtain ⟨hpelems, -, hnext⟩ := cleared_same s.mixer h
    refine ⟨rfl, ?_, fun compare hcompare hfaithful horder => ?_⟩
    · rw [hm]
      unfold Known
      dsimp only
      rw [hpelems, hnext]
      exact hs
    · rw [governs_iff_of (s := { s with mixer := m }) hcompare, hm]
      constructor
      · rintro ⟨-, hcleared⟩ - - - - - - - -
        exact hcleared
      · intro hkeeps
        refine ⟨hfaithful, ?_⟩
        show InOrder compare (cleared s.mixer h)
        cases hleaves : leaves s.mixer h with
        | none =>
          unfold cleared
          rw [hleaves]
          exact horder
        | some found =>
          rw [leaves_hctl] at hleft
          exact hkeeps hpos he found.1 found.2 hhe hcallback hleaves (hleft rfl _ _ hleaves)
  · rw [leaves_hctl] at hleaves
    refine ⟨rfl, ?_, fun compare hcompare hfaithful horder => ?_⟩
    · rw [hm]
      exact fun e' he' => hs e' (List.mem_of_mem_erase he')
    · rw [governs_iff_of (s := { s with mixer := m }) hcompare, hm]
      refine iff_of_true ⟨hfaithful, InOrder.erase compare s.mixer e horder⟩ ?_
      rintro - - e' elem' - - hleaves' hsome
      cases hleaves.symm.trans hleaves'
      exact absurd hsome hnone

theorem remove_handled (w : World) (q : Compared) (s t : State) (h : Nat) (hs : Known s.mixer)
    (hstep : step s (.event (.remove h w) q) = some t) :
    Handled s t fun compare => KeepsOrder compare s.mixer (.remove h w) := by
  unfold step at hstep
  dsimp only at hstep
  unfold KeepsOrder
  cases hhe : s.mixer.helems h with
  | none =>
    rw [hhe] at hstep
    cases hstep
    refine Handled.refl s hs _ fun _ _ he _ _ hhe' => ?_
    rw [hhe] at hhe'
    cases hhe'
  | some he =>
    rw [hhe] at hstep
    obtain ⟨⟨err, u⟩, hhandle, rfl⟩ := Option.map_eq_some_iff.mp hstep
    suffices hhandled : Handled s u fun compare =>
        0 ≤ w.elem_throw_event SND_CTL_EVENT_MASK_REMOVE →
          ∀ he e elem, s.mixer.helems h = some he → he.callback → leaves s.mixer h = some (e, elem) →
            (∃ i, (elem.items i).isSome) → InOrder compare (cleared s.mixer h) from
      ⟨hhandled.compare, hhandled.known, hhandled.governs⟩
    set m : SndMixer := { s.mixer with hctl := s.mixer.hctl.erase h } with hm
    have hkept (keeps : SndMixerCompare → Prop) (hkeeps : ∀ compare, keeps compare) :
        Handled s { s with mixer := m } keeps := by
      obtain ⟨hcompare, hknown, hgoverns⟩ := Handled.refl s hs keeps hkeeps
      exact ⟨hcompare, hknown, hgoverns⟩
    split at hhandle
    · rename_i hcallback
      unfold hctl_elem_event_handler at hhandle
      have hhe' : m.helems h = some he := hhe
      rw [hhe', Option.bind_some] at hhandle
      cases hdata : he.private_data with
      | none =>
        rw [hdata] at hhandle
        cases hhandle
        refine hkept _ fun _ _ he' e elem _ _ hleaves => ?_
        unfold leaves at hleaves
        rw [hhe, Option.bind_some, hdata] at hleaves
        cases hleaves
      | some e =>
        rw [hdata] at hhandle
        obtain ⟨elem, -, hhandle⟩ := Option.bind_eq_some_iff.mp hhandle
        rw [if_pos rfl] at hhandle
        dsimp only at hhandle
        split at hhandle
        · rename_i hneg
          cases hhandle
          exact hkept _ fun _ hpos => absurd hneg (not_lt.mpr hpos)
        · rename_i hpos
          obtain ⟨⟨err', m'⟩, hremove, hhandle⟩ := Option.map_eq_some_iff.mp hhandle
          cases hhandle
          exact removed_handled w s m' h he err' hs hhe hcallback (not_lt.mp hpos) hremove
    · rename_i hcallback
      cases hhandle
      refine hkept _ fun _ _ he' _ _ hhe' hcallback' => ?_
      obtain rfl : he = he' := Option.some.inj (hhe.symm.trans hhe')
      exact absurd hcallback' hcallback

/-! ## Runs -/

/-- The addresses in the list are known, and the comparison governs. -/
def Inv (s : State) : Prop := Known s.mixer ∧ Governs s

theorem step_known (s : State) (call : Call) (t : State) (hs : Known s.mixer) (hstep : step s call = some t) :
    Known t.mixer := by
  cases call with
  | set_compare compare =>
    cases hstep
    exact hs
  | event act q =>
    cases act with
    | add id w => exact (add_handled w q s t id hs hstep).known
    | notify h mask w => exact (notify_handled w q s t h mask hs hstep).known
    | remove h w => exact (remove_handled w q s t h hs hstep).known

theorem step_governs_iff (s : State) (call : Call) (t : State) (hs : Inv s) (hstep : step s call = some t) :
    Governs t ↔ Quiet s call := by
  cases call with
  | set_compare compare =>
    cases hstep
    exact Iff.rfl
  | event act q =>
    have hhandled : Handled s t fun compare => KeepsOrder compare s.mixer act := by
      cases act with
      | add id w => exact add_handled w q s t id hs.1 hstep
      | notify h mask w => exact notify_handled w q s t h mask hs.1 hstep
      | remove h w => exact remove_handled w q s t h hs.1 hstep
    unfold Quiet
    cases hcompare : s.compare with
    | none =>
      refine iff_of_true (fun c hc => ?_) fun c hc => by cases hc
      rw [hhandled.compare, hcompare] at hc
      cases hc
    | some compare =>
      obtain ⟨hfaithful, horder⟩ := hs.2 compare hcompare
      rw [hhandled.governs compare hcompare hfaithful horder]
      simp

theorem inv_opened : Inv opened :=
  ⟨fun e he => absurd he List.not_mem_nil, fun _ h => by cases h⟩

/-- The comparison governs the order in every state of a run just when every step meets its condition. -/
theorem order_governed_iff (calls : List Call) :
    AllReached step Governs opened calls ↔
      AllSteps step (fun s call => (step s call).isSome → Quiet s call) opened calls := by
  apply allReached_iff_allSteps Inv Governs Quiet (fun s hs => hs.2) step_governs_iff _ opened calls inv_opened
  exact fun s call t hs hstep hgoverns => ⟨step_known s call t hs.1 hstep, hgoverns⟩

/-! The element that was made last is to come first. -/

def newest_first : SndMixerCompare where
  compare x y := if y.1 < x.1 then -1#32 else if x.1 < y.1 then 1#32 else 0#32
  total x y := by
    rcases lt_trichotomy x.1 y.1 with h | h | h
    · exact .inr (by rw [if_pos h]; decide)
    · exact .inl (by rw [h, if_neg (lt_irrefl _), if_neg (lt_irrefl _)]; decide)
    · exact .inl (by rw [if_pos h]; decide)
  trans x y z hxy hyz := by
    have hle (a b : Nat) (h : (if b < a then -1#32 else if a < b then 1#32 else 0#32).toInt ≤ 0) : b ≤ a := by
      by_contra hlt
      rw [if_neg (by omega), if_pos (by omega)] at h
      exact absurd h (by decide)
    have hzx := (hle _ _ hyz).trans (hle _ _ hxy)
    split
    · decide
    · rw [if_neg (not_lt.mpr hzx)]
      decide

def neighbours : Compared where
  pairs pelems := (List.range (pelems.length - 1)).map fun i => (i, i + 1)
  slots pelems p hp := by
    obtain ⟨i, hi, rfl⟩ := List.mem_map.mp hp
    have := List.mem_range.mp hi
    dsimp only
    omega
  some pelems hlength h := by
    have := congrArg List.length h
    simp at this
    omega

def two_controls : List Call :=
  [.set_compare (some newest_first), .event (.add (volume_id "X Playback".toList) volume_world) neighbours,
    .event (.add (volume_id "Y Playback".toList) volume_world) neighbours]

theorem order_not_governed : ¬ AllReached step Governs opened two_controls := by
  intro h
  have hshown : ((run step opened two_controls).map fun t => (t.mixer.pelems, (t.mixer.melems 2).isSome,
      (t.mixer.melems 5).isSome)) = some ([2, 5], true, true) := by decide +kernel
  obtain ⟨t, ht, hshown⟩ := Option.map_eq_some_iff.mp hshown
  obtain ⟨hpelems, hx, hy⟩ : t.mixer.pelems = [2, 5] ∧ (t.mixer.melems 2).isSome ∧ (t.mixer.melems 5).isSome := by
    simpa using hshown
  unfold two_controls at ht h
  obtain ⟨s₁, hs₁, ht⟩ := Option.bind_eq_some_iff.mp ht
  obtain ⟨s₂, hs₂, ht⟩ := Option.bind_eq_some_iff.mp ht
  obtain ⟨s₃, hs₃, ht⟩ := Option.bind_eq_some_iff.mp ht
  cases ht
  cases hs₁
  have hknown : Known ({ opened with compare := some newest_first } : State).mixer := inv_opened.1
  have hadd₁ := add_handled _ _ _ _ _ hknown hs₂
  have hadd₂ := add_handled _ _ _ _ _ hadd₁.known hs₃
  have hgoverns := ((h.2 _ rfl).2 _ hs₂).2 _ hs₃
  have horder := (hgoverns newest_first (hadd₂.compare.trans hadd₁.compare)).2
  obtain ⟨x, hx⟩ := Option.isSome_iff_exists.mp hx
  obtain ⟨y, hy⟩ := Option.isSome_iff_exists.mp hy
  unfold InOrder at horder
  rw [hpelems, List.pairwise_cons] at horder
  exact absurd (horder.1 5 List.mem_cons_self x y hx hy) (show ¬ (1#32 : BitVec 32).toInt ≤ 0 by decide)

end Salsa.Mixer.Order
