import Salsa.Lib.Cells
import Salsa.Mixer.Caps

/-!
# Removing a control

`remove_simple_element` takes the item of a control out of its mixer element. It clears the slot
behind a playback slot when the element has the cap for global items. A cap is never taken back, so
that slot can be another control's by then.
-/

namespace Salsa.Mixer

open Cells
open Hctl (SND_CTL_EVENT_MASK_REMOVE)

/-- The slot is empty, or will be when the control `h` is removed. -/
def is_free_for (s : SndMixer) (h : Nat) (slot : Option Nat) : Bool := slot.isNone || is_item_of s h slot

/-- The mixer element has the item of a control other than `h`. -/
def HasOther (s : SndMixer) (h : Nat) (elem : SndMixerElem) : Prop :=
  ∃ i, (elem.items i).isSome ∧ ¬ is_item_of s h (elem.items i)

/-- The slot that is cleared together with the one of `h` is not another control's. -/
def ClearsOwn (s : SndMixer) (h : Nat) (elem : SndMixerElem) : Prop :=
  (is_item_of s h (elem.items SND_SELEM_ITEM_PVOLUME) → elem.caps &&& SND_SM_CAP_GVOLUME ≠ 0#32 →
    is_free_for s h (elem.items SND_SELEM_ITEM_CVOLUME)) ∧
  (is_item_of s h (elem.items SND_SELEM_ITEM_PSWITCH) → elem.caps &&& SND_SM_CAP_GSWITCH ≠ 0#32 →
    is_free_for s h (elem.items SND_SELEM_ITEM_CSWITCH))

/-- The mixer element without the items of `h`. -/
def vacated (s : SndMixer) (h : Nat) (elem : SndMixerElem) : SndMixerElem :=
  { elem with items := fun i => if is_item_of s h (elem.items i) then none else elem.items i }

theorem find_item_eq (s : SndMixer) (elem : SndMixerElem) (h : Nat) (l : List (Fin 5))
    (hlive : ∀ i it, elem.items i = some it → (s.items it).isSome) :
    find_item s elem h l =
      some ((l.find? fun i => is_item_of s h (elem.items i)).bind fun i =>
        (elem.items i).map fun it => (i, it)) := by
  induction l with
  | nil => rfl
  | cons i l ih =>
    unfold find_item
    rw [List.find?_cons]
    cases hslot : elem.items i with
    | none => exact ih
    | some it =>
      obtain ⟨item, hitem⟩ := Option.isSome_iff_exists.mp (hlive i it hslot)
      have hof : is_item_of s h (some it) = (item.helem == h) := by simp [is_item_of, hitem]
      simp only [hitem, Option.bind_some, hof]
      by_cases heq : item.helem = h
      · rw [if_pos heq, beq_iff_eq.mpr heq]
        simp [hslot]
      · rw [if_neg heq, beq_eq_false_iff_ne.mpr heq]
        exact ih

theorem find_item_first (s : SndMixer) (elem : SndMixerElem) (h : Nat)
    (hlive : ∀ i it, elem.items i = some it → (s.items it).isSome)
    (hexists : ∃ i, is_item_of s h (elem.items i)) :
    ∃ i it, find_item s elem h (List.finRange 5) = some (some (i, it)) ∧ elem.items i = some it ∧
      is_item_of s h (elem.items i) ∧ ∀ j, j < i → ¬ is_item_of s h (elem.items j) := by
  obtain ⟨k, hk⟩ := hexists
  obtain ⟨i, hi⟩ : ∃ i, (List.finRange 5).find? (fun i => is_item_of s h (elem.items i)) = some i := by
    rw [← Option.isSome_iff_exists, List.find?_isSome]
    exact ⟨k, List.mem_finRange k, hk⟩
  have hof := List.find?_some hi
  obtain ⟨it, item, hslot, hitem, -⟩ := (is_item_of_iff _ _ _).mp hof
  refine ⟨i, it, ?_, hslot, hof, fun j hj => ?_⟩
  · rw [find_item_eq s elem h _ hlive, hi, Option.bind_some, hslot]
    rfl
  · obtain ⟨-, before, after, hsplit, hbefore⟩ := List.find?_eq_some_iff_append.mp hi
    have hsorted := List.pairwise_lt_finRange 5
    have hmem : j ∈ before ++ i :: after := hsplit ▸ List.mem_finRange j
    rw [hsplit, List.pairwise_append, List.pairwise_cons] at hsorted
    rw [List.mem_append, List.mem_cons] at hmem
    rcases hmem with hmem | rfl | hmem
    · have := hbefore j hmem
      simpa using this
    · exact absurd hj (lt_irrefl _)
    · exact absurd (hsorted.2.1.1 j hmem) (not_lt.mpr hj.le)

theorem vacate_one (s : SndMixer) (h : Nat) (elem : SndMixerElem) (i : Fin 5)
    (hi : is_item_of s h (elem.items i)) (honly : ∀ j, is_item_of s h (elem.items j) → j = i) :
    Function.update elem.items i none = (vacated s h elem).items := by
  funext j
  unfold vacated
  dsimp only
  rcases eq_or_ne j i with rfl | hj
  · rw [Function.update_self, if_pos hi]
  · rw [Function.update_of_ne hj, if_neg fun hof => hj (honly j hof)]

theorem vacate_two (s : SndMixer) (h : Nat) (elem : SndMixerElem) (i k : Fin 5)
    (hi : is_item_of s h (elem.items i)) (hk : is_free_for s h (elem.items k))
    (honly : ∀ j, is_item_of s h (elem.items j) → j = i ∨ j = k) :
    Function.update (Function.update elem.items i none) k none = (vacated s h elem).items := by
  funext j
  unfold vacated
  dsimp only
  rcases eq_or_ne j k with rfl | hjk
  · rw [Function.update_self]
    split
    · rfl
    · rename_i hof
      unfold is_free_for at hk
      rw [Bool.eq_false_iff.mpr hof, Bool.or_false, Option.isNone_iff_eq_none] at hk
      exact hk.symm
  · rw [Function.update_of_ne hjk]
    rcases eq_or_ne j i with rfl | hji
    · rw [Function.update_self, if_pos hi]
    · rw [Function.update_of_ne hji, if_neg fun hof => (honly j hof).elim hji hjk]

/-- Clearing the first slot of a control clears all of its slots, and no other. -/
theorem clear_slot_eq (s : SndMixer) (h : Nat) (elem : SndMixerElem) (dir : Direction) (kind : Kind)
    (i : Fin 5) (hslots : ∀ j, is_item_of s h (elem.items j) ↔ j ∈ slots dir kind)
    (hgvolume : is_item_of s h (elem.items SND_SELEM_ITEM_PVOLUME) →
      is_item_of s h (elem.items SND_SELEM_ITEM_CVOLUME) → elem.caps &&& SND_SM_CAP_GVOLUME ≠ 0#32)
    (hgswitch : is_item_of s h (elem.items SND_SELEM_ITEM_PSWITCH) →
      is_item_of s h (elem.items SND_SELEM_ITEM_CSWITCH) → elem.caps &&& SND_SM_CAP_GSWITCH ≠ 0#32)
    (hi : is_item_of s h (elem.items i)) (hfirst : ∀ j, j < i → ¬ is_item_of s h (elem.items j))
    (hown : ClearsOwn s h elem) : elem.clear_slot i = vacated s h elem := by
  have hmem := (hslots i).mp hi
  -- A further slot of the control comes behind, and is the one that is cleared as well.
  have hnext (j : Fin 5) (hj : is_item_of s h (elem.items j)) (hne : j ≠ i) :
      i = SND_SELEM_ITEM_PVOLUME ∧ j = SND_SELEM_ITEM_CVOLUME ∨
        i = SND_SELEM_ITEM_PSWITCH ∧ j = SND_SELEM_ITEM_CSWITCH := by
    have hlt : i < j := lt_of_le_of_ne (not_lt.mp fun hlt => hfirst j hlt hj) hne.symm
    exact slots_two dir kind i j hmem ((hslots j).mp hj) hlt
  unfold SndMixerElem.clear_slot
  dsimp only
  split
  · rename_i hcap
    obtain ⟨rfl, hcap⟩ := hcap
    rw [vacate_two s h elem _ _ hi (hown.1 hi hcap)]
    · rfl
    · intro j hj
      by_cases hne : j = SND_SELEM_ITEM_PVOLUME
      · exact .inl hne
      · rcases hnext j hj hne with ⟨-, hj⟩ | ⟨heq, -⟩
        · exact .inr hj
        · exact absurd heq (by decide)
  · rename_i hnvolume
    split
    · rename_i hcap
      obtain ⟨rfl, hcap⟩ := hcap
      rw [vacate_two s h elem _ _ hi (hown.2 hi hcap)]
      · rfl
      · intro j hj
        by_cases hne : j = SND_SELEM_ITEM_PSWITCH
        · exact .inl hne
        · rcases hnext j hj hne with ⟨heq, -⟩ | ⟨-, hj⟩
          · exact absurd heq (by decide)
          · exact .inr hj
    · rename_i hnswitch
      rw [vacate_one s h elem i hi]
      · rfl
      · intro j hj
        by_contra hne
        rcases hnext j hj hne with ⟨rfl, rfl⟩ | ⟨rfl, rfl⟩
        · exact hnvolume ⟨rfl, hgvolume hi hj⟩
        · exact hnswitch ⟨rfl, hgswitch hi hj⟩

/-! ## The whole removal -/

/-- The item `it` of `h` is out of the mixer element `e`, and freed. -/
def without (s : SndMixer) (h e it : Nat) (elem : SndMixerElem) : SndMixer :=
  { s with
    melems := Function.update s.melems e (some (vacated s h elem)),
    items := Function.update s.items it none }

theorem Filled.slots_live (s : SndMixer) (x : Option Nat) (hs : Filled s x) (e : Nat) (elem : SndMixerElem)
    (helem : s.melems e = some elem) (i : Fin 5) (it : Nat) (hslot : elem.items i = some it) :
    (s.items it).isSome := by
  obtain ⟨item, -, hitem, -⟩ := hs.slot e elem i it helem hslot
  exact Option.isSome_iff_exists.mpr ⟨item, hitem⟩

theorem slots_nonempty (dir : Direction) (kind : Kind) : ∃ i, i ∈ slots dir kind := by
  cases dir <;> cases kind <;> exact ⟨_, List.mem_cons_self⟩

theorem remove_spec (s : SndMixer) (hs : Held s none) (h e : Nat) (he : SndHctlElem)
    (hhe : s.helems h = some he) (hdata : he.private_data = some e)
    (hown : ∀ elem, s.melems e = some elem → ClearsOwn s h elem) (remove_mixer : Bool) :
    ∃ elem it item, s.melems e = some elem ∧ s.items it = some item ∧ item.helem = h ∧
      remove_simple_element s h remove_mixer =
        some (0,
          if ¬ remove_mixer then without s h e it elem
          else if (List.finRange 5).any fun i => ((vacated s h elem).items i).isSome then
            without s h e it elem
          else remove_mixer_elem (without s h e it elem) e) := by
  obtain ⟨elem, it, item, helem, hitem, hof, hheld, hslots⟩ :=
    hs.is_item_of_iff s none h e he hhe hdata (by simp)
  have hlive := hs.slots_live s none e elem helem
  have hexists : ∃ i, is_item_of s h (elem.items i) := by
    obtain ⟨i, hi⟩ := slots_nonempty (decode_name he.id.name).dir item.kind
    exact ⟨i, (hslots i).mpr hi⟩
  obtain ⟨i, it', hfind, hslot, hi, hfirst⟩ := find_item_first s elem h hlive hexists
  obtain rfl : it' = it := Option.some.inj (hslot.symm.trans (hheld i ((hslots i).mp hi)))
  have hitems (j : Fin 5) (hj : is_item_of s h (elem.items j)) : elem.items j = some it' :=
    hheld j ((hslots j).mp hj)
  have hclear : elem.clear_slot i = vacated s h elem := by
    apply clear_slot_eq s h elem _ _ i hslots _ _ hi hfirst (hown elem helem)
    · intro hp hc
      exact (hs.caps e elem it' helem).1 (hitems _ hp) (hitems _ hc)
    · intro hp hc
      exact (hs.caps e elem it' helem).2 (hitems _ hp) (hitems _ hc)
  refine ⟨elem, it', item, helem, hitem, hof, ?_⟩
  unfold remove_simple_element
  rw [hhe, Option.bind_some, hdata, Option.bind_some, helem, Option.bind_some, hfind, Option.map_some]
  dsimp only
  rw [hclear]
  split_ifs <;> rfl

/-! ## What is left -/

section Without

variable (s : SndMixer) (h e it : Nat) (elem : SndMixerElem) (item : SndSelemItem) (he : SndHctlElem)
  (hs : Held s none) (hhe : s.helems h = some he) (hdata : he.private_data = some e)
  (helem : s.melems e = some elem) (hitem : s.items it = some item) (hof : item.helem = h)

theorem without_melem (e' : Nat) (elem' : SndMixerElem) : (without s h e it elem).melems e' = some elem' ↔
    e' = e ∧ vacated s h elem = elem' ∨ e' ≠ e ∧ s.melems e' = some elem' := stored_eq_some

theorem without_self : (without s h e it elem).melems e = some (vacated s h elem) := Function.update_self _ _ _

include hs hhe hdata in
theorem others_not_item_of (e' : Nat) (elem' : SndMixerElem) (helem' : s.melems e' = some elem') (hne : e' ≠ e)
    (i : Fin 5) : is_item_of s h (elem'.items i) = false :=
  hs.not_is_item_of s none h e' elem' he hhe (fun hd => hne (Option.some.inj (hd.symm.trans hdata))) helem' i

include hs hhe hdata helem in
theorem without_elem (e' : Nat) (elem' : SndMixerElem)
    (helem' : (without s h e it elem).melems e' = some elem') :
    ∃ old, s.melems e' = some old ∧ old.caps = elem'.caps ∧
      ∀ i it', elem'.items i = some it' → old.items i = some it' ∧ ¬ is_item_of s h (some it') := by
  rcases (without_melem s h e it elem _ _).mp helem' with ⟨rfl, rfl⟩ | ⟨hne, helem'⟩
  · refine ⟨elem, helem, rfl, fun i it' hslot => ?_⟩
    unfold vacated at hslot
    dsimp only at hslot
    split at hslot
    · cases hslot
    · rename_i hnot
      exact ⟨hslot, hslot ▸ hnot⟩
  · refine ⟨elem', helem', rfl, fun i it' hslot => ⟨hslot, ?_⟩⟩
    have hnot := others_not_item_of s h e he hs hhe hdata e' elem' helem' hne i
    exact hslot ▸ Bool.eq_false_iff.mp hnot

include helem in
theorem slot_without (e' : Nat) (old : SndMixerElem) (hold : s.melems e' = some old) :
    ∃ elem', (without s h e it elem).melems e' = some elem' ∧
      ∀ i, ¬ is_item_of s h (old.items i) → elem'.items i = old.items i := by
  rcases eq_or_ne e' e with rfl | hne
  · obtain rfl : old = elem := Option.some.inj (hold.symm.trans helem)
    exact ⟨_, without_self s h e' it old, fun i hnot => if_neg hnot⟩
  · exact ⟨old, (without_melem s h e it elem _ _).mpr (.inr ⟨hne, hold⟩), fun _ _ => rfl⟩

include helem in
theorem without_isSome (e' : Nat) : ((without s h e it elem).melems e').isSome = (s.melems e').isSome := by
  unfold without
  dsimp only
  rcases eq_or_ne e' e with rfl | hne
  · rw [Function.update_self, helem]
    rfl
  · rw [Function.update_of_ne hne]

include hs hitem hof in
theorem without_item (it' : Nat) (item' : SndSelemItem) :
    (without s h e it elem).items it' = some item' ↔ s.items it' = some item' ∧ item'.helem ≠ h := by
  unfold without
  dsimp only
  rw [freed_eq_some, and_comm]
  refine and_congr_right fun hitem' => not_congr ⟨?_, fun heq => ?_⟩
  · rintro rfl
    exact Option.some.inj (hitem'.symm.trans hitem) ▸ hof
  · exact hs.unique it' it item' item hitem' hitem (heq.trans hof.symm)

theorem not_is_item_of_iff (it' : Nat) (item' : SndSelemItem) (hitem' : s.items it' = some item') :
    ¬ is_item_of s h (some it') ↔ item'.helem ≠ h := by
  simp [is_item_of, hitem']

include hs hhe hdata helem hitem hof in
theorem held_without : Held (without s h e it elem) (some h) where
  pelems_nodup := hs.pelems_nodup
  pelems := by
    intro e'
    rw [without_isSome s h e it elem helem]
    exact hs.pelems e'
  fresh := by
    intro n hn
    obtain ⟨hhelem, hmelem, hnone⟩ := hs.fresh n hn
    refine ⟨hhelem, ?_, ?_⟩
    · rw [← Option.not_isSome_iff_eq_none, without_isSome s h e it elem helem, hmelem]
      simp
    · rw [Option.eq_none_iff_forall_ne_some]
      intro item' hitem'
      rw [without_item s h e it elem item hs hitem hof] at hitem'
      simp [hnone] at hitem'
  callback := hs.callback
  slot := by
    intro e' elem' i it' helem' hslot
    obtain ⟨old, hold, -, hslots⟩ := without_elem s h e it elem he hs hhe hdata helem e' elem' helem'
    obtain ⟨hslot', hnot⟩ := hslots i it' hslot
    obtain ⟨item', he', hitem', hhe', hdata', hmem⟩ := hs.slot e' old i it' hold hslot'
    rw [not_is_item_of_iff s h it' item' hitem'] at hnot
    exact ⟨item', he', (without_item s h e it elem item hs hitem hof it' item').mpr ⟨hitem', hnot⟩, hhe',
      hdata', hmem⟩
  owner := by
    intro h' he' e' hhe' hdata' hne
    have hne : h' ≠ h := fun heq => hne (congrArg some heq)
    obtain ⟨old, it', item', hold, hitem', hof', hheld⟩ := hs.owner h' he' e' hhe' hdata' (by simp)
    have hne' : item'.helem ≠ h := hof'.symm ▸ hne
    obtain ⟨elem', helem', hslots⟩ := slot_without s h e it elem helem e' old hold
    refine ⟨elem', it', item', helem', ?_, hof', fun i hi => ?_⟩
    · exact (without_item s h e it elem item hs hitem hof it' item').mpr ⟨hitem', hne'⟩
    · rw [hslots i, hheld i hi]
      rw [hheld i hi, not_is_item_of_iff s h it' item' hitem']
      exact hne'
  item := by
    intro it' item' hitem'
    rw [without_item s h e it elem item hs hitem hof] at hitem'
    obtain ⟨hitem', hne⟩ := hitem'
    exact ⟨fun heq => hne (Option.some.inj heq), (hs.item it' item' hitem').2⟩
  unique := by
    intro it₁ it₂ item₁ item₂ hitem₁ hitem₂
    rw [without_item s h e it elem item hs hitem hof] at hitem₁ hitem₂
    exact hs.unique it₁ it₂ item₁ item₂ hitem₁.1 hitem₂.1
  caps := by
    intro e' elem' it' helem'
    obtain ⟨old, hold, hcaps, hslots⟩ := without_elem s h e it elem he hs hhe hdata helem e' elem' helem'
    obtain ⟨hvolume, hswitch⟩ := hs.caps e' old it' hold
    rw [HasCaps, ← hcaps]
    exact ⟨fun hp hc => hvolume (hslots _ _ hp).1 (hslots _ _ hc).1,
      fun hp hc => hswitch (hslots _ _ hp).1 (hslots _ _ hc).1⟩

include hs helem hitem hof in
theorem keeps_without : Keeps h s (without s h e it elem) := by
  intro e' old i it' item' hold hslot hitem' hne
  obtain ⟨elem', helem', hslots⟩ := slot_without s h e it elem helem e' old hold
  refine ⟨elem', item', helem', ?_, ?_, rfl⟩
  · rw [hslots i, hslot]
    rw [hslot, not_is_item_of_iff s h it' item' hitem']
    exact hne
  · exact (without_item s h e it elem item hs hitem hof it' item').mpr ⟨hitem', hne⟩

theorem used_without (hused : Used s none) : Used (without s h e it elem) (some e) := by
  intro e' elem' helem' hne
  rcases (without_melem s h e it elem _ _).mp helem' with ⟨rfl, -⟩ | ⟨-, helem'⟩
  · exact absurd rfl hne
  · exact hused e' elem' helem' (by simp)

include hs helem hitem hof in
theorem desc_vacated (i : Fin 5) :
    slot_desc (without s h e it elem) ((vacated s h elem).items i) =
      if is_item_of s h (elem.items i) then none else slot_desc s (elem.items i) := by
  unfold vacated
  dsimp only
  split
  · rfl
  · rename_i hnot
    cases hslot : elem.items i with
    | none => rfl
    | some it' =>
      obtain ⟨item', -, hitem', -⟩ := hs.slot e elem i it' helem hslot
      rw [hslot, not_is_item_of_iff s h it' item' hitem'] at hnot
      exact slot_desc_congr s _ it' item' hitem'
        ((without_item s h e it elem item hs hitem hof it' item').mpr ⟨hitem', hnot⟩) rfl

include hs helem hitem hof in
theorem channels_vacated (i : Fin 5) : slot_channels (without s h e it elem) ((vacated s h elem).items i) =
    if is_item_of s h (elem.items i) then 0 else slot_channels s (elem.items i) := by
  unfold slot_channels
  rw [desc_vacated s h e it elem item hs helem hitem hof]
  split <;> rfl

include hs hhe hdata hitem hof in
theorem described_without (hdescribed : Described s none) : Described (without s h e it elem) (some e) := by
  intro e' elem' helem' hne
  have hne : e' ≠ e := fun heq => hne (congrArg some heq)
  have hold : s.melems e' = some elem' :=
    ((without_melem s h e it elem _ _).mp helem').elim (fun heq => absurd heq.1 hne) fun hkept => hkept.2
  refine (hdescribed e' elem' hold (by simp)).congr s _ elem' fun i => ?_
  cases hslot : elem'.items i with
  | none => rfl
  | some it' =>
    obtain ⟨item', -, hitem', -⟩ := hs.slot e' elem' i it' hold hslot
    have hnot := others_not_item_of s h e he hs hhe hdata e' elem' hold hne i
    rw [hslot, ← Bool.not_eq_true, not_is_item_of_iff s h it' item' hitem'] at hnot
    exact slot_desc_congr s _ it' item' hitem'
      ((without_item s h e it elem item hs hitem hof it' item').mpr ⟨hitem', hnot⟩) rfl

end Without

section Removed

variable (s : SndMixer) (e : Nat)

theorem removed_melem (e' : Nat) (elem : SndMixerElem) :
    (remove_mixer_elem s e).melems e' = some elem ↔ e' ≠ e ∧ s.melems e' = some elem := freed_eq_some

theorem removed_of_item (hempty : ∀ elem i, s.melems e = some elem → elem.items i = none) (e' it : Nat)
    (elem : SndMixerElem) (i : Fin 5) (helem : s.melems e' = some elem) (hslot : elem.items i = some it) :
    (remove_mixer_elem s e).melems e' = some elem := by
  refine (removed_melem s e e' elem).mpr ⟨?_, helem⟩
  rintro rfl
  rw [hempty elem i helem] at hslot
  cases hslot

end Removed

theorem held_remove_mixer_elem (s : SndMixer) (x : Option Nat) (hs : Held s x) (e : Nat)
    (hempty : ∀ elem i, s.melems e = some elem → elem.items i = none) :
    Held (remove_mixer_elem s e) x := by
  have hsub (e' : Nat) (elem : SndMixerElem) (h : (remove_mixer_elem s e).melems e' = some elem) :
      s.melems e' = some elem := ((removed_melem s e e' elem).mp h).2
  exact
    { pelems_nodup := hs.pelems_nodup.erase e
      pelems := by
        intro e'
        unfold remove_mixer_elem
        rw [hs.pelems_nodup.mem_erase_iff, hs.pelems e']
        rcases eq_or_ne e' e with rfl | hne
        · simp
        · simp [hne]
      fresh := by
        intro n hn
        obtain ⟨hhelem, hmelem, hitem⟩ := hs.fresh n hn
        refine ⟨hhelem, ?_, hitem⟩
        rw [Option.eq_none_iff_forall_ne_some]
        intro elem h
        rw [hsub n elem h] at hmelem
        cases hmelem
      callback := hs.callback
      slot := fun e' elem i it helem => hs.slot e' elem i it (hsub e' elem helem)
      owner := by
        intro h he e' hhe hdata hne
        obtain ⟨elem, it, item, helem, hitem, hof, hheld⟩ := hs.owner h he e' hhe hdata hne
        obtain ⟨i, hi⟩ := slots_nonempty (decode_name he.id.name).dir item.kind
        exact ⟨elem, it, item, removed_of_item s e hempty e' it elem i helem (hheld i hi), hitem, hof, hheld⟩
      item := hs.item
      unique := hs.unique
      caps := fun e' elem it helem => hs.caps e' elem it (hsub e' elem helem) }

def freed (s : SndMixer) (h : Nat) : SndMixer := { s with helems := Function.update s.helems h none }

theorem held_freed (s : SndMixer) (h : Nat) (hs : Held s (some h)) : Held (freed s h) none := by
  have hsub (h' : Nat) (he : SndHctlElem) :
      (freed s h).helems h' = some he ↔ h' ≠ h ∧ s.helems h' = some he := freed_eq_some
  have hitem (it : Nat) (item : SndSelemItem) (h' : s.items it = some item) : item.helem ≠ h :=
    fun heq => (hs.item it item h').1 (congrArg some heq)
  exact
    { pelems_nodup := hs.pelems_nodup
      pelems := hs.pelems
      fresh := by
        intro n hn
        obtain ⟨hhelem, hmelem, hnone⟩ := hs.fresh n hn
        refine ⟨?_, hmelem, hnone⟩
        rw [Option.eq_none_iff_forall_ne_some]
        intro he h'
        rw [((hsub n he).mp h').2] at hhelem
        cases hhelem
      callback := fun h' he e hhe => hs.callback h' he e ((hsub h' he).mp hhe).2
      slot := by
        intro e elem i it helem hslot
        obtain ⟨item, he, hi, hhe, hdata, hmem⟩ := hs.slot e elem i it helem hslot
        exact ⟨item, he, hi, (hsub _ he).mpr ⟨hitem it item hi, hhe⟩, hdata, hmem⟩
      owner := by
        intro h' he e hhe hdata _
        obtain ⟨hne, hhe⟩ := (hsub h' he).mp hhe
        exact hs.owner h' he e hhe hdata fun heq => hne (Option.some.inj heq)
      item := by
        intro it item hi
        obtain ⟨-, he, hhe, hdata⟩ := hs.item it item hi
        exact ⟨by simp, he, (hsub _ he).mpr ⟨hitem it item hi, hhe⟩, hdata⟩
      unique := hs.unique
      caps := hs.caps }

theorem filled_of_unplaced (s : SndMixer) (h : Nat) (he : SndHctlElem) (hhe : s.helems h = some he)
    (hdata : he.private_data = none) : Filled s none ↔ Filled s (some h) := by
  constructor
  · intro hs
    refine { hs with item := ?_ }
    intro it item hitem
    obtain ⟨-, he', hhe', hsome⟩ := hs.item it item hitem
    refine ⟨?_, he', hhe', hsome⟩
    intro heq
    rw [Option.some.inj heq, hhe] at hhe'
    rw [← Option.some.inj hhe', hdata] at hsome
    cases hsome
  · intro hs
    refine { hs with item := ?_ }
    exact fun it item hitem => ⟨by simp, (hs.item it item hitem).2⟩

theorem held_of_unplaced (s : SndMixer) (h : Nat) (he : SndHctlElem) (hhe : s.helems h = some he)
    (hdata : he.private_data = none) : Held s none ↔ Held s (some h) := by
  have hfilled := filled_of_unplaced s h he hhe hdata
  constructor
  · intro hs
    refine { hfilled.mp hs.toFilled, hs with owner := ?_ }
    intro h' he' e' hhe' hdata' _
    exact hs.owner h' he' e' hhe' hdata' (by simp)
  · intro hs
    refine { hfilled.mpr hs.toFilled, hs with owner := ?_ }
    intro h' he' e' hhe' hdata' _
    apply hs.owner h' he' e' hhe' hdata'
    intro heq
    rw [Option.some.inj heq, hhe] at hhe'
    rw [← Option.some.inj hhe', hdata] at hdata'
    cases hdata'

/-! ## Removing a registered control -/

theorem keeps_remove_mixer_elem (s : SndMixer) (h e : Nat)
    (hempty : ∀ elem i, s.melems e = some elem → elem.items i = none) :
    Keeps h s (remove_mixer_elem s e) := by
  intro e' elem i it item helem hslot hitem _
  exact ⟨elem, item, removed_of_item s e hempty e' it elem i helem hslot, hslot, hitem, rfl⟩

theorem used_remove_mixer_elem (s : SndMixer) (e : Nat) (hused : Used s (some e)) :
    Used (remove_mixer_elem s e) none := by
  intro e' elem helem _
  obtain ⟨hne, helem⟩ := (removed_melem s e e' elem).mp helem
  exact hused e' elem helem fun heq => hne (Option.some.inj heq)

theorem described_remove_mixer_elem (s : SndMixer) (e : Nat) (hdescribed : Described s (some e)) :
    Described (remove_mixer_elem s e) none := by
  intro e' elem helem _
  obtain ⟨hne, helem⟩ := (removed_melem s e e' elem).mp helem
  exact (hdescribed e' elem helem fun heq => hne (Option.some.inj heq)).congr s _ elem fun _ => rfl

theorem described_freed (s : SndMixer) (h : Nat) (hs : Held s (some h)) (hdescribed : Described s none) :
    Described (freed s h) none := by
  intro e elem helem _
  refine (hdescribed e elem helem (by simp)).congr s _ elem fun i => ?_
  cases hslot : elem.items i with
  | none => rfl
  | some it =>
    obtain ⟨item, -, hitem, -⟩ := hs.slot e elem i it helem hslot
    refine slot_desc_congr s _ it item hitem hitem (Function.update_of_ne ?_ _ _)
    exact fun heq => (hs.item it item hitem).1 (congrArg some heq)

/-- The mixer element of `h` has no other items. -/
def Empties (s : SndMixer) (h : Nat) : Prop :=
  ∀ he e elem, s.helems h = some he → he.private_data = some e → s.melems e = some elem →
    ¬ HasOther s h elem

/-- What a removal of `h` that takes the mixer element along leaves. -/
structure Removed (h : Nat) (s s' : SndMixer) : Prop where
  helems : s'.helems = s.helems
  hctl : s'.hctl = s.hctl
  held : Held s' (some h)
  used : Used s' none
  keeps : Keeps h s s'
  described : Described s none → Empties s h → Described s' none

theorem remove_simple_element_removed (s : SndMixer) (hs : Held s none) (hused : Used s none)
    (h e : Nat) (he : SndHctlElem) (hhe : s.helems h = some he) (hdata : he.private_data = some e)
    (hown : ∀ elem, s.melems e = some elem → ClearsOwn s h elem) :
    ∃ s', remove_simple_element s h true = some (0, s') ∧ Removed h s s' := by
  obtain ⟨elem, it, item, helem, hitem, hof, hremove⟩ := remove_spec s hs h e he hhe hdata hown true
  have hheld := held_without s h e it elem item he hs hhe hdata helem hitem hof
  have hkeeps := keeps_without s h e it elem item hs helem hitem hof
  have hrest := used_without s h e it elem hused
  have hmelem := without_self s h e it elem
  rw [if_neg (by simp)] at hremove
  refine ⟨_, hremove, ?_⟩
  by_cases hany : (List.finRange 5).any fun i => ((vacated s h elem).items i).isSome
  · rw [if_pos hany]
    obtain ⟨i, -, hi⟩ := List.any_eq_true.mp hany
    have hother : HasOther s h elem := by
      unfold vacated at hi
      dsimp only at hi
      split at hi
      · cases hi
      · rename_i hnot
        exact ⟨i, hi, hnot⟩
    refine ⟨rfl, rfl, hheld, ?_, hkeeps, fun _ hempties => absurd hother (hempties he e elem hhe hdata helem)⟩
    intro e' elem' helem' _
    rcases (without_melem s h e it elem _ _).mp helem' with ⟨-, rfl⟩ | ⟨-, hold⟩
    · exact ⟨i, hi⟩
    · exact hused e' elem' hold (by simp)
  · rw [if_neg hany]
    have hempty (elem' : SndMixerElem) (i : Fin 5)
        (helem' : (without s h e it elem).melems e = some elem') : elem'.items i = none := by
      obtain rfl := Option.some.inj (hmelem.symm.trans helem')
      rw [← Option.not_isSome_iff_eq_none]
      intro hi
      exact hany (List.any_eq_true.mpr ⟨i, List.mem_finRange i, hi⟩)
    refine ⟨rfl, rfl, held_remove_mixer_elem _ _ hheld e hempty, used_remove_mixer_elem _ e hrest, ?_,
      fun hdescribed _ => ?_⟩
    · exact hkeeps.trans _ _ _ _ (keeps_remove_mixer_elem _ h e hempty)
    · exact described_remove_mixer_elem _ e
        (described_without s h e it elem item he hs hhe hdata hitem hof hdescribed)

/-- Only the control's own slots are cleared, and its callback lets the removal happen. -/
def RemovesOwn (w : World) (s : SndMixer) (h : Nat) : Prop :=
  ∀ he e elem, s.helems h = some he → he.private_data = some e → s.melems e = some elem →
    0 ≤ w.elem_throw_event SND_CTL_EVENT_MASK_REMOVE ∧ ClearsOwn s h elem

theorem handle_remove_removed (w : World) (s : SndMixer) (hs : Held s none) (hused : Used s none)
    (h : Nat) (he : SndHctlElem) (hhe : s.helems h = some he) (hown : RemovesOwn w s h) :
    ∃ err s', hctl_elem_event_handler w s h SND_CTL_EVENT_MASK_REMOVE = some (err, s') ∧
      Removed h s s' := by
  unfold hctl_elem_event_handler
  rw [hhe, Option.bind_some]
  cases hdata : he.private_data with
  | none =>
    exact ⟨0, s, rfl, rfl, rfl, (held_of_unplaced s h he hhe hdata).mp hs, hused, Keeps.refl h s, fun h _ => h⟩
  | some e =>
    obtain ⟨elem, it, item, helem, -⟩ := hs.owner h he e hhe hdata (by simp)
    obtain ⟨herr, -⟩ := hown he e elem hhe hdata helem
    obtain ⟨s', hremove, hremoved⟩ := remove_simple_element_removed s hs hused h e he hhe hdata
      fun elem helem => (hown he e elem hhe hdata helem).2
    refine ⟨0, s', ?_, hremoved⟩
    dsimp only
    rw [helem, Option.bind_some, if_pos rfl, if_neg (not_lt.mpr herr), hremove]
    rfl

theorem snd_hctl_elem_remove_spec (w : World) (s : SndMixer) (hs : Inv s) (h : Nat) (he : SndHctlElem)
    (hhe : s.helems h = some he) (hown : RemovesOwn w s h) :
    ∃ s', snd_hctl_elem_remove w s h he = some s' ∧ Inv s' ∧ Keeps h s s' ∧
      s'.hctl = s.hctl.erase h ∧ (Described s none → Empties s h → Described s' none) := by
  set t : SndMixer := { s with hctl := s.hctl.erase h } with ht
  have hheld : Held t none := hs.held.congr s t none rfl rfl rfl (.refl _) (le_refl _)
  have hhandled : ∃ err s', (if he.callback then hctl_elem_event_handler w t h SND_CTL_EVENT_MASK_REMOVE
      else some (0, t)) = some (err, s') ∧ Removed h t s' := by
    split
    · exact handle_remove_removed w t hheld hs.used h he hhe hown
    · rename_i hcallback
      have hdata : he.private_data = none := by
        rw [Option.eq_none_iff_forall_ne_some]
        intro e hdata
        exact hcallback (hs.held.callback h he e hhe hdata)
      exact ⟨0, t, rfl, rfl, rfl, (held_of_unplaced t h he hhe hdata).mp hheld, hs.used, Keeps.refl h t,
        fun h _ => h⟩
  obtain ⟨err, s', heq, hremoved⟩ := hhandled
  have hlist : (freed s' h).hctl = s.hctl.erase h := hremoved.hctl
  refine ⟨freed s' h, ?_, ⟨?_, ?_, held_freed s' h hremoved.held, hremoved.used⟩, hremoved.keeps, hlist,
    fun hdescribed hempties => ?_⟩
  · unfold snd_hctl_elem_remove
    dsimp only
    rw [← ht, heq]
    rfl
  · rw [hlist]
    exact hs.hctl_nodup.erase h
  · intro h'
    rw [hlist, hs.hctl_nodup.mem_erase_iff, hs.hctl h']
    unfold freed
    rw [hremoved.helems]
    rcases eq_or_ne h' h with rfl | hne
    · simp
    · simp [hne, ht]
  · apply described_freed s' h hremoved.held
    exact hremoved.described (hdescribed.congr s t none rfl rfl rfl) hempties

end Salsa.Mixer
