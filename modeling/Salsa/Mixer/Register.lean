import Salsa.Mixer.Remove
import Mathlib.Data.BitVec

/-!
# Registering a control

`add_simple_element` puts the item of a control into the first mixer element of its name that has
the slot free, or into a new one. Only the first slot of a global item is looked at; the other one
is overwritten.
-/

namespace Salsa.Mixer

open Cells

/-- The caps, the slot and the kind of the item that the control gets, if it gets one. -/
def creates (w : World) (dir : Direction) : Option (BitVec 32 × Fin 5 × Kind) :=
  if w.info_errno = 0 ∧ w.read_errno = 0 ∧ w.alloc_item then item_type dir w.type else none

/-- The mixer element has the name, and the slot free for `h`. -/
def takes (s : SndMixer) (h : Nat) (name : List Char) (type : Fin 5) (e : Nat) : Bool :=
  (s.melems e).any fun elem => elem.name == name && is_free_for s h (elem.items type)

/-- The mixer element that the item goes into. -/
def place (s : SndMixer) (h : Nat) (name : List Char) (type : Fin 5) : Option Nat :=
  s.pelems.find? (takes s h name type)

def has_room (w : World) (s : SndMixer) : Prop := s.pelems.length = s.alloc → w.realloc

/-! ## The mixer element -/

@[simp] theorem max_channels_items (elem : SndMixerElem) (dir : Fin 2) (channels : Nat) :
    (elem.max_channels dir channels).items = elem.items := by
  unfold SndMixerElem.max_channels
  split <;> rfl

@[simp] theorem max_channels_caps (elem : SndMixerElem) (dir : Fin 2) (channels : Nat) :
    (elem.max_channels dir channels).caps = elem.caps := by
  unfold SndMixerElem.max_channels
  split <;> rfl

theorem add_cap_caps (elem : SndMixerElem) (caps : BitVec 32) (type : Fin 5) (it channels : Nat) :
    (elem.add_cap caps type it channels).caps = elem.caps ||| caps := by
  unfold SndMixerElem.add_cap
  dsimp only
  split
  · rfl
  · split <;> simp

theorem add_cap_items (elem : SndMixerElem) (dir : Direction) (ctl : CtlType) (caps : BitVec 32)
    (type : Fin 5) (kind : Kind) (it channels : Nat)
    (htype : item_type dir ctl = some (caps, type, kind)) (i : Fin 5) :
    (elem.add_cap caps type it channels).items i =
      if i ∈ slots dir kind then some it else elem.items i := by
  have hslots := item_type_slots dir ctl caps type kind htype
  unfold SndMixerElem.add_cap
  dsimp only
  by_cases henum : type = SND_SELEM_ITEM_ENUM
  · rw [if_neg fun h => h.1 henum] at hslots
    rw [if_pos henum, hslots]
    simp [Function.update_apply]
  · rw [if_neg henum]
    by_cases hglobal : is_global caps
    · rw [if_pos ⟨henum, hglobal⟩] at hslots
      rw [if_pos hglobal, if_pos hglobal, hslots]
      simp only [max_channels_items, Function.update_apply, List.mem_cons, List.not_mem_nil, or_false]
      split_ifs <;> simp_all
    · rw [if_neg fun h => hglobal h.2] at hslots
      rw [if_neg hglobal, if_neg hglobal, hslots]
      simp [Function.update_apply]

theorem max_channels_channels (elem : SndMixerElem) (dir d : Fin 2) (channels : Nat) :
    (elem.max_channels dir channels).channels d =
      if d = dir then max (elem.channels d) channels else elem.channels d := by
  unfold SndMixerElem.max_channels
  split
  · rename_i hgt
    dsimp only
    rw [Function.update_apply]
    split
    · rename_i heq
      rw [heq, max_eq_right (le_of_lt hgt)]
    · rfl
  · rename_i hle
    split
    · rename_i heq
      rw [heq, max_eq_left (not_lt.mp hle)]
    · rfl

theorem add_cap_channels (elem : SndMixerElem) (dir : Direction) (ctl : CtlType) (caps : BitVec 32)
    (type : Fin 5) (kind : Kind) (it channels : Nat)
    (htype : item_type dir ctl = some (caps, type, kind)) (d : Fin 2) :
    (elem.add_cap caps type it channels).channels d =
      if volume_slot d ∈ slots dir kind ∨ switch_slot d ∈ slots dir kind then max (elem.channels d) channels
      else elem.channels d := by
  have hslots : (volume_slot d ∈ slots dir kind ∨ switch_slot d ∈ slots dir kind) ↔
      type ≠ SND_SELEM_ITEM_ENUM ∧ (d.val = type.val % 2 ∨ is_global caps) := by
    revert d
    cases ctl <;> cases dir <;> cases htype <;> decide
  have hdir : d = ⟨type.val % 2, Nat.mod_lt _ (by decide)⟩ ↔ d.val = type.val % 2 := Fin.ext_iff
  unfold SndMixerElem.add_cap
  dsimp only
  by_cases henum : type = SND_SELEM_ITEM_ENUM
  · rw [if_pos henum, if_neg fun h => (hslots.mp h).1 henum]
  · rw [if_neg henum]
    by_cases hglobal : is_global caps
    · rw [if_pos hglobal, if_pos hglobal, if_pos (hslots.mpr ⟨henum, .inr hglobal⟩)]
      simp only [max_channels_channels]
      split_ifs <;> first | rfl | omega
    · rw [if_neg hglobal, if_neg hglobal, max_channels_channels]
      refine if_congr ?_ rfl rfl
      rw [hslots, hdir]
      simp [henum, hglobal]

theorem hasCaps_add_cap (elem : SndMixerElem) (dir : Direction) (ctl : CtlType) (caps : BitVec 32)
    (type : Fin 5) (kind : Kind) (it channels : Nat)
    (htype : item_type dir ctl = some (caps, type, kind)) (hold : ∀ it', HasCaps elem it')
    (hnew : ∀ i, elem.items i ≠ some it) (it' : Nat) :
    HasCaps (elem.add_cap caps type it channels) it' := by
  have hboth (p c : Fin 5) (g : BitVec 32)
      (hcaps : p ∈ slots dir kind → c ∈ slots dir kind → caps &&& g ≠ 0#32)
      (helem : elem.items p = some it' → elem.items c = some it' → elem.caps &&& g ≠ 0#32)
      (hp : (elem.add_cap caps type it channels).items p = some it')
      (hc : (elem.add_cap caps type it channels).items c = some it') :
      (elem.add_cap caps type it channels).caps &&& g ≠ 0#32 := by
    rw [add_cap_items elem dir ctl caps type kind it channels htype] at hp hc
    rw [add_cap_caps]
    apply (or_and_ne_zero_iff _ _ _).mpr
    split at hp <;> split at hc
    · rename_i hmp hmc
      exact .inr (hcaps hmp hmc)
    · exact absurd (hc.trans hp.symm) (hnew c)
    · exact absurd (hp.trans hc.symm) (hnew p)
    · exact .inl (helem hp hc)
  exact ⟨hboth _ _ _ (item_type_gvolume dir ctl caps type kind htype) (hold it').1,
    hboth _ _ _ (item_type_gswitch dir ctl caps type kind htype) (hold it').2⟩

/-! ## The item in its place -/

/-- The control `h` has the item `it`, in the mixer element `e` that becomes `elem'`. -/
def placed (t : SndMixer) (h e it : Nat) (he : SndHctlElem) (item : SndSelemItem)
    (elem' : SndMixerElem) : SndMixer :=
  { t with
    melems := Function.update t.melems e (some elem'),
    helems := Function.update t.helems h (some { he with private_data := some e }),
    items := Function.update t.items it (some item) }

section Placed

variable (t : SndMixer) (h e it : Nat) (he : SndHctlElem) (item : SndSelemItem)
  (elem elem' : SndMixerElem) (ht : Filled t (some h)) (hhe : t.helems h = some he)
  (hcallback : he.callback) (helem : t.melems e = some elem) (hfresh : t.items it = none)
  (hof : item.helem = h)
  (hitems : ∀ i, elem'.items i = if i ∈ slots_of he item then some it else elem.items i)
  (hfree : ∀ i ∈ slots_of he item, elem.items i = none)

theorem placed_melem (e' : Nat) (new : SndMixerElem) : (placed t h e it he item elem').melems e' = some new ↔
    e' = e ∧ elem' = new ∨ e' ≠ e ∧ t.melems e' = some new := stored_eq_some

theorem placed_helem (h' : Nat) (he' : SndHctlElem) : (placed t h e it he item elem').helems h' = some he' ↔
    h' = h ∧ { he with private_data := some e } = he' ∨ h' ≠ h ∧ t.helems h' = some he' := stored_eq_some

theorem placed_item (it' : Nat) (item' : SndSelemItem) :
    (placed t h e it he item elem').items it' = some item' ↔
      it' = it ∧ item = item' ∨ it' ≠ it ∧ t.items it' = some item' := stored_eq_some

theorem placed_self : (placed t h e it he item elem').items it = some item := Function.update_self _ _ _

include hof in
theorem placed_control :
    (placed t h e it he item elem').helems item.helem = some { he with private_data := some e } :=
  (placed_helem t h e it he item elem' _ _).mpr (.inl ⟨hof, rfl⟩)

include helem hitems hfree in
theorem slot_placed (e' : Nat) (old : SndMixerElem) (hold : t.melems e' = some old) :
    ∃ new, (placed t h e it he item elem').melems e' = some new ∧
      ∀ i it', old.items i = some it' → new.items i = some it' := by
  rcases eq_or_ne e' e with rfl | hne
  · obtain rfl : old = elem := Option.some.inj (hold.symm.trans helem)
    refine ⟨elem', (placed_melem t h e' it he item elem' _ _).mpr (.inl ⟨rfl, rfl⟩), fun i it' hslot => ?_⟩
    rw [hitems i, if_neg]
    · exact hslot
    · intro hi
      rw [hfree i hi] at hslot
      cases hslot
  · exact ⟨old, (placed_melem t h e it he item elem' _ _).mpr (.inr ⟨hne, hold⟩), fun _ _ hslot => hslot⟩

include hfresh in
theorem item_placed (it' : Nat) (item' : SndSelemItem) (hitem' : t.items it' = some item') :
    (placed t h e it he item elem').items it' = some item' := stored_of_free hfresh hitem'

include helem hfresh hitems hfree in
theorem keeps_placed : Keeps h t (placed t h e it he item elem') := by
  intro e' old i it' item' hold hslot hitem' _
  obtain ⟨new, hnew, hslots⟩ := slot_placed t h e it he item elem elem' helem hitems hfree e' old hold
  exact ⟨new, item', hnew, hslots i it' hslot, item_placed t h e it he item elem' hfresh it' item' hitem',
    rfl⟩

include hitems in
theorem used_placed (hused : Used t (some e)) : Used (placed t h e it he item elem') none := by
  intro e' new hnew _
  rcases (placed_melem t h e it he item elem' _ _).mp hnew with ⟨rfl, rfl⟩ | ⟨hne, hmelem⟩
  · obtain ⟨i, hi⟩ := slots_nonempty (decode_name he.id.name).dir item.kind
    refine ⟨i, ?_⟩
    rw [hitems i, slots_of, if_pos hi]
    rfl
  · exact hused e' new hmelem fun heq => hne (Option.some.inj heq)

include ht in
theorem other_item (it' : Nat) (item' : SndSelemItem) (hitem' : t.items it' = some item') :
    item'.helem ≠ h := fun heq => (ht.item it' item' hitem').1 (congrArg some heq)

include ht in
theorem control_placed (it' : Nat) (item' : SndSelemItem) (hitem' : t.items it' = some item') :
    (placed t h e it he item elem').helems item'.helem = t.helems item'.helem :=
  Function.update_of_ne (other_item t h ht it' item' hitem') _ _

include ht helem hfresh hof hitems in
theorem slot_of_placed (e' : Nat) (new : SndMixerElem) (i : Fin 5) (it' : Nat)
    (hnew : (placed t h e it he item elem').melems e' = some new) (hslot : new.items i = some it') :
    ∃ item' he', (placed t h e it he item elem').items it' = some item' ∧
      (placed t h e it he item elem').helems item'.helem = some he' ∧ he'.private_data = some e' ∧
      i ∈ slots_of he' item' := by
  have hold (old : SndMixerElem) (hmelem : t.melems e' = some old) (hslot : old.items i = some it') :
      ∃ item' he', (placed t h e it he item elem').items it' = some item' ∧
        (placed t h e it he item elem').helems item'.helem = some he' ∧ he'.private_data = some e' ∧
        i ∈ slots_of he' item' := by
    obtain ⟨item', he', hitem', hhe', hdata', hmem⟩ := ht.slot e' old i it' hmelem hslot
    exact ⟨item', he', item_placed t h e it he item elem' hfresh it' item' hitem',
      (control_placed t h e it he item elem' ht it' item' hitem').trans hhe', hdata', hmem⟩
  rcases (placed_melem t h e it he item elem' _ _).mp hnew with ⟨rfl, rfl⟩ | ⟨-, hmelem⟩
  · rw [hitems i] at hslot
    split at hslot
    · rename_i hi
      obtain rfl := Option.some.inj hslot
      exact ⟨item, _, placed_self t h e' it he item elem', placed_control t h e' it he item elem' hof, rfl, hi⟩
    · exact hold elem helem hslot
  · exact hold new hmelem hslot

include helem hfresh hof hitems hfree in
theorem owner_placed (howner : Owning t (some h)) : Owning (placed t h e it he item elem') none := by
  intro h' he' e' hhe' hdata' _
  rcases (placed_helem t h e it he item elem' _ _).mp hhe' with ⟨rfl, rfl⟩ | ⟨hne, hhe'⟩
  · obtain rfl : e = e' := Option.some.inj hdata'
    refine ⟨elem', it, item, (placed_melem t h' e it he item elem' _ _).mpr (.inl ⟨rfl, rfl⟩),
      placed_self t h' e it he item elem', hof, fun i hi => ?_⟩
    rw [hitems i]
    exact if_pos hi
  · obtain ⟨old, it', item', hmelem, hitem', hof', hheld⟩ :=
      howner h' he' e' hhe' hdata' fun heq => hne (Option.some.inj heq)
    obtain ⟨new, hnew, hslots⟩ :=
      slot_placed t h e it he item elem elem' helem hitems hfree e' old hmelem
    exact ⟨new, it', item', hnew, item_placed t h e it he item elem' hfresh it' item' hitem', hof',
      fun i hi => hslots i it' (hheld i hi)⟩

include ht hof in
theorem unique_placed (it₁ it₂ : Nat) (item₁ item₂ : SndSelemItem)
    (hitem₁ : (placed t h e it he item elem').items it₁ = some item₁)
    (hitem₂ : (placed t h e it he item elem').items it₂ = some item₂) (heq : item₁.helem = item₂.helem) :
    it₁ = it₂ := by
  rw [placed_item] at hitem₁ hitem₂
  rcases hitem₁ with ⟨rfl, rfl⟩ | ⟨-, hitem₁⟩ <;> rcases hitem₂ with ⟨rfl, rfl⟩ | ⟨-, hitem₂⟩
  · rfl
  · exact absurd (heq.symm.trans hof) (other_item t h ht it₂ item₂ hitem₂)
  · exact absurd (heq.trans hof) (other_item t h ht it₁ item₁ hitem₁)
  · exact ht.unique it₁ it₂ item₁ item₂ hitem₁ hitem₂ heq

include ht hhe hcallback helem hfresh hof hitems in
theorem filled_placed (hit : it < t.next) (hcaps : ∀ it', HasCaps elem' it') :
    Filled (placed t h e it he item elem') none := by
  refine
    { fresh := ?_, callback := ?_
      slot := slot_of_placed t h e it he item elem elem' ht helem hfresh hof hitems
      item := ?_
      unique := unique_placed t h e it he item elem' ht hof
      caps := ?_ }
  · intro n hn
    obtain ⟨hhelem, hmelem, hitem⟩ := ht.fresh n hn
    refine ⟨?_, ?_, ?_⟩
    · exact (Function.update_of_ne (ne_of_free hhelem hhe).symm _ _).trans hhelem
    · exact (Function.update_of_ne (ne_of_free hmelem helem).symm _ _).trans hmelem
    · exact (Function.update_of_ne (hit.trans_le hn).ne' _ _).trans hitem
  · intro h' he' e' hhe' hdata'
    rcases (placed_helem t h e it he item elem' _ _).mp hhe' with ⟨-, rfl⟩ | ⟨-, hhe'⟩
    · exact hcallback
    · exact ht.callback h' he' e' hhe' hdata'
  · intro it' item' hitem'
    refine ⟨by simp, ?_⟩
    rcases (placed_item t h e it he item elem' _ _).mp hitem' with ⟨-, rfl⟩ | ⟨-, hitem'⟩
    · exact ⟨_, placed_control t h e it he item elem' hof, rfl⟩
    · obtain ⟨-, he', hhe', hdata'⟩ := ht.item it' item' hitem'
      exact ⟨he', (control_placed t h e it he item elem' ht it' item' hitem').trans hhe', hdata'⟩
  · intro e' new it' hnew
    rcases (placed_melem t h e it he item elem' _ _).mp hnew with ⟨-, rfl⟩ | ⟨-, hmelem⟩
    · exact hcaps it'
    · exact ht.caps e' new it' hmelem

include helem in
theorem placed_isSome (e' : Nat) :
    ((placed t h e it he item elem').melems e').isSome = (t.melems e').isSome := by
  unfold placed
  dsimp only
  rcases eq_or_ne e' e with rfl | hne
  · rw [Function.update_self, helem]
    rfl
  · rw [Function.update_of_ne hne]

include hhe hcallback helem hfresh hof hitems hfree in
theorem held_placed (hheld : Held t (some h)) (hit : it < t.next) (hcaps : ∀ it', HasCaps elem' it') :
    Held (placed t h e it he item elem') none where
  toFilled := filled_placed t h e it he item elem elem' hheld.toFilled hhe hcallback helem hfresh hof hitems hit
    hcaps
  pelems_nodup := hheld.pelems_nodup
  pelems := by
    intro e'
    rw [placed_isSome t h e it he item elem elem' helem]
    exact hheld.pelems e'
  owner := owner_placed t h e it he item elem elem' helem hfresh hof hitems hfree hheld.owner

include ht helem hfresh hof hitems in
theorem desc_placed (i : Fin 5) :
    slot_desc (placed t h e it he item elem') (elem'.items i) =
      if i ∈ slots_of he item then
        some { dir := (decode_name he.id.name).dir, kind := item.kind, channels := item.channels }
      else slot_desc t (elem.items i) := by
  rw [hitems i]
  split
  · exact slot_desc_some _ it item { he with private_data := some e } (placed_self t h e it he item elem')
      (placed_control t h e it he item elem' hof)
  · cases hslot : elem.items i with
    | none => rfl
    | some it' =>
      obtain ⟨item', -, hitem', -⟩ := ht.slot e elem i it' helem hslot
      exact slot_desc_congr t _ it' item' hitem' (item_placed t h e it he item elem' hfresh it' item' hitem')
        (control_placed t h e it he item elem' ht it' item' hitem')

include ht helem hfresh hof hitems in
theorem channels_placed (i : Fin 5) : slot_channels (placed t h e it he item elem') (elem'.items i) =
    if i ∈ slots_of he item then item.channels else slot_channels t (elem.items i) := by
  unfold slot_channels
  rw [desc_placed t h e it he item elem elem' ht helem hfresh hof hitems]
  split <;> rfl

include ht helem hfresh hof hitems in
/-- The caps are those of what the slots hold now. -/
theorem caps_placed (houtranks : Outranks t elem (decode_name he.id.name).dir item.kind)
    (hcaps : elem'.caps = elem.caps ||| caps_of (decode_name he.id.name).dir item.kind)
    (hfits : FitsWith t elem (decode_name he.id.name).dir item.kind item.channels) (m : BitVec 32) :
    elem'.caps &&& m ≠ 0#32 ↔ ∃ i desc, slot_desc (placed t h e it he item elem') (elem'.items i) = some desc ∧
      caps_of desc.dir desc.kind &&& m ≠ 0#32 := by
  have hdesc := desc_placed t h e it he item elem elem' ht helem hfresh hof hitems
  rw [hcaps, or_and_ne_zero_iff]
  by_cases hm : caps_of (decode_name he.id.name).dir item.kind &&& m = 0#32
  · rw [hfits.1 m hm]
    constructor
    · rintro (⟨i, desc, hi, hbit⟩ | hbit)
      · refine ⟨i, desc, ?_, hbit⟩
        rw [hdesc, if_neg, hi]
        intro hmem
        apply hbit
        rw [← houtranks i hmem desc hi, BitVec.and_assoc, BitVec.and_comm _ m, ← BitVec.and_assoc, hm,
          BitVec.zero_and]
      · exact absurd hm hbit
    · rintro ⟨i, desc, hi, hbit⟩
      rw [hdesc] at hi
      split at hi
      · obtain rfl := Option.some.inj hi
        exact absurd hm hbit
      · exact .inl ⟨i, desc, hi, hbit⟩
  · refine iff_of_true (.inr hm) ?_
    obtain ⟨i, hi⟩ := slots_nonempty (decode_name he.id.name).dir item.kind
    exact ⟨i, _, (hdesc i).trans (if_pos hi), hm⟩

include ht helem hfresh hof hitems in
theorem fitting_placed (houtranks : Outranks t elem (decode_name he.id.name).dir item.kind)
    (hspares : Spares t elem (decode_name he.id.name).dir item.kind item.channels)
    (hcaps : elem'.caps = elem.caps ||| caps_of (decode_name he.id.name).dir item.kind)
    (hchannels : ∀ d, elem'.channels d =
      if volume_slot d ∈ slots_of he item ∨ switch_slot d ∈ slots_of he item then
        max (elem.channels d) item.channels
      else elem.channels d)
    (hfits : FitsWith t elem (decode_name he.id.name).dir item.kind item.channels) :
    Fitting (placed t h e it he item elem') elem' := by
  constructor
  · exact caps_placed t h e it he item elem elem' ht helem hfresh hof hitems houtranks hcaps hfits
  · intro d
    have hfits := hfits.2 d
    have hslot := channels_placed t h e it he item elem elem' ht helem hfresh hof hitems
    have hone := slots_one (decode_name he.id.name).dir item.kind d
    obtain ⟨hvolume, hswitch⟩ := hspares d
    rw [hchannels, hslot, hslot]
    unfold slots_of
    by_cases hv : volume_slot d ∈ slots (decode_name he.id.name).dir item.kind
    · have hmost := hvolume hv
      rw [if_pos (.inl hv)] at hfits ⊢
      rw [if_pos hv, if_neg (hone hv), hfits]
      omega
    · by_cases hw : switch_slot d ∈ slots (decode_name he.id.name).dir item.kind
      · have hmost := hswitch hw
        rw [if_pos (.inr hw)] at hfits ⊢
        rw [if_neg hv, if_pos hw, hfits]
        omega
      · rw [if_neg (not_or.mpr ⟨hv, hw⟩)] at hfits ⊢
        rw [if_neg hv, if_neg hw, hfits]

include ht helem hfresh hof hitems in
theorem described_placed (hdescribed : Described t (some e))
    (houtranks : Outranks t elem (decode_name he.id.name).dir item.kind)
    (hspares : Spares t elem (decode_name he.id.name).dir item.kind item.channels)
    (hcaps : elem'.caps = elem.caps ||| caps_of (decode_name he.id.name).dir item.kind)
    (hchannels : ∀ d, elem'.channels d =
      if volume_slot d ∈ slots_of he item ∨ switch_slot d ∈ slots_of he item then
        max (elem.channels d) item.channels
      else elem.channels d)
    (hfits : FitsWith t elem (decode_name he.id.name).dir item.kind item.channels) :
    Described (placed t h e it he item elem') none := by
  intro e' new hnew _
  rcases (placed_melem t h e it he item elem' _ _).mp hnew with ⟨rfl, rfl⟩ | ⟨hne, hnew⟩
  · exact fitting_placed t h e' it he item elem elem' ht helem hfresh hof hitems houtranks hspares hcaps hchannels
      hfits
  · refine (hdescribed e' new hnew fun heq => hne (Option.some.inj heq)).congr t _ new fun i => ?_
    cases hslot : new.items i with
    | none => rfl
    | some it' =>
      obtain ⟨item', -, hitem', -⟩ := ht.slot e' new i it' hnew hslot
      exact slot_desc_congr t _ it' item' hitem' (item_placed t h e it he item elem' hfresh it' item' hitem')
        (control_placed t h e it he item elem' ht it' item' hitem')

end Placed

/-! ## A new mixer element -/

/-- The mixer element `e` was made and sorted in; it has no item yet. -/
def extended (t : SndMixer) (e : Nat) (elem : SndMixerElem) (pelems : List Nat) (alloc next : Nat) :
    SndMixer :=
  { t with melems := Function.update t.melems e (some elem), pelems, alloc, next }

section Extended

variable (t : SndMixer) (x : Option Nat) (e : Nat) (elem : SndMixerElem) (pelems : List Nat)
  (alloc next : Nat) (hempty : ∀ i, elem.items i = none) (hfresh : t.melems e = none)

theorem extended_old (e' : Nat) (hne : e' ≠ e) :
    (extended t e elem pelems alloc next).melems e' = t.melems e' := Function.update_of_ne hne _ _

include hfresh in
theorem keeps_extended (h : Nat) : Keeps h t (extended t e elem pelems alloc next) := by
  intro e' old i it item hold hslot hitem _
  exact ⟨old, item, stored_of_free hfresh hold, hslot, hitem, rfl⟩

theorem used_extended (hused : Used t none) : Used (extended t e elem pelems alloc next) (some e) := by
  intro e' elem' helem' hne
  rw [extended_old t e elem pelems alloc next e' fun heq => hne (congrArg some heq)] at helem'
  exact hused e' elem' helem' (by simp)

theorem described_extended (hdescribed : Described t none) :
    Described (extended t e elem pelems alloc next) (some e) := by
  intro e' elem' helem' hne
  rw [extended_old t e elem pelems alloc next e' fun heq => hne (congrArg some heq)] at helem'
  exact (hdescribed e' elem' helem' (by simp)).congr t _ elem' fun _ => rfl

include hempty in
theorem filled_extended (ht : Filled t x) (hlt : e < next) (hnext : t.next ≤ next) :
    Filled (extended t e elem pelems alloc next) x := by
  refine
    { fresh := ?_, callback := ht.callback, slot := ?_, item := ht.item, unique := ht.unique, caps := ?_ }
  · intro n hn
    have hn : next ≤ n := hn
    obtain ⟨hhelem, hmelem, hitem⟩ := ht.fresh n (hnext.trans hn)
    refine ⟨hhelem, ?_, hitem⟩
    rw [extended_old t e elem pelems alloc next n (by omega), hmelem]
  · intro e' elem' i it helem' hslot
    rcases stored_eq_some.mp helem' with ⟨-, rfl⟩ | ⟨-, helem'⟩
    · rw [hempty i] at hslot
      cases hslot
    · exact ht.slot e' elem' i it helem' hslot
  · intro e' elem' it helem'
    rcases stored_eq_some.mp helem' with ⟨-, rfl⟩ | ⟨-, helem'⟩
    · simp [HasCaps, hempty]
    · exact ht.caps e' elem' it helem'

include hempty hfresh in
theorem held_extended (ht : Held t x) (hperm : pelems.Perm (t.pelems ++ [e])) (hlt : e < next)
    (hnext : t.next ≤ next) : Held (extended t e elem pelems alloc next) x := by
  have hself : (extended t e elem pelems alloc next).melems e = some elem := Function.update_self _ _ _
  have hold := extended_old t e elem pelems alloc next
  have hnew : e ∉ t.pelems := by
    rw [ht.pelems e, hfresh]
    simp
  refine
    { filled_extended t x e elem pelems alloc next hempty ht.toFilled hlt hnext with
      pelems_nodup := ?_, pelems := ?_, owner := ?_ }
  · show pelems.Nodup
    rw [hperm.nodup_iff, List.nodup_append]
    simp only [List.nodup_singleton, List.mem_singleton, true_and]
    exact ⟨ht.pelems_nodup, fun a ha b hb heq => hnew (hb ▸ heq ▸ ha)⟩
  · intro e'
    rw [show (extended t e elem pelems alloc next).pelems = pelems from rfl, hperm.mem_iff,
      List.mem_append, List.mem_singleton, ht.pelems e']
    rcases eq_or_ne e' e with rfl | hne
    · simp [hself]
    · simp [hold e' hne, hne]
  · intro h he e' hhe hdata hx
    obtain ⟨elem', it, item, helem', hrest⟩ := ht.owner h he e' hhe hdata hx
    exact ⟨elem', it, item, stored_of_free hfresh helem', hrest⟩

end Extended

/-! ## The search -/

theorem find_elem_spec (s : SndMixer) (name : List Char) (type : Fin 5) (p : Nat → Bool)
    (l : List Nat) (index : BitVec 32)
    (hp : ∀ e ∈ l, ∃ elem, s.melems e = some elem ∧
      (p e ↔ elem.name = name ∧ elem.items type = none)) :
    match l.find? p with
    | some e => find_elem s name type l index = some (.inl e)
    | none => ∃ index', find_elem s name type l index = some (.inr index') := by
  induction l generalizing index with
  | nil => exact ⟨index, rfl⟩
  | cons e l ih =>
    obtain ⟨elem, helem, hiff⟩ := hp e List.mem_cons_self
    have ih := fun index => ih index fun e' he' => hp e' (List.mem_cons_of_mem _ he')
    unfold find_elem
    rw [helem, Option.bind_some]
    by_cases htakes : p e
    · obtain ⟨hname, hslot⟩ := hiff.mp htakes
      rw [List.find?_cons_of_pos htakes]
      simp [hname, hslot]
    · rw [List.find?_cons_of_neg htakes]
      by_cases hname : elem.name = name
      · have hslot : (elem.items type).isSome := by
          rw [Option.isSome_iff_ne_none]
          exact fun hslot => htakes (hiff.mpr ⟨hname, hslot⟩)
        rw [if_pos hname]
        dsimp only
        rw [if_pos hslot]
        exact ih _
      · rw [if_neg hname]
        exact ih index

theorem takes_iff (t : SndMixer) (h : Nat) (ht : Filled t (some h)) (name : List Char) (type : Fin 5)
    (e : Nat) (elem : SndMixerElem) (helem : t.melems e = some elem) :
    takes t h name type e ↔ elem.name = name ∧ elem.items type = none := by
  have hnot : is_item_of t h (elem.items type) = false := by
    rw [Bool.eq_false_iff]
    intro hof
    obtain ⟨it, item, -, hitem, rfl⟩ := (is_item_of_iff _ _ _).mp hof
    exact other_item t _ ht it item hitem rfl
  simp [takes, helem, is_free_for, hnot]

/-! ## The whole registration -/

theorem slots_free (elem : SndMixerElem) (dir : Direction) (ctl : CtlType) (caps : BitVec 32) (type : Fin 5)
    (kind : Kind) (htype : item_type dir ctl = some (caps, type, kind)) (hslot : elem.items type = none)
    (hnext : is_global caps → elem.items (type + 1) = none) : ∀ i ∈ slots dir kind, elem.items i = none := by
  intro i hi
  rw [item_type_slots _ _ caps type kind htype] at hi
  split at hi
  · rename_i hglobal
    rcases List.mem_pair.mp hi with rfl | rfl
    · exact hslot
    · exact hnext hglobal.2
  · obtain rfl := List.mem_singleton.mp hi
    exact hslot

/-- What the registration of `h` leaves when it puts an item in place. -/
structure Registered (h : Nat) (s s' : SndMixer) : Prop where
  hctl : s'.hctl = s.hctl
  helems : ∀ h', (s'.helems h').isSome = (s.helems h').isSome
  melems : ∀ e, (s.melems e).isSome → (s'.melems e).isSome
  held : Held s' none
  keeps : Keeps h s s'

def made_item (w : World) (h : Nat) (kind : Kind) : SndSelemItem :=
  { helem := h, numid := w.numid, channels := w.count, kind, values := (List.range w.count).map w.value }

theorem new_selem_item_eq (w : World) (h : Nat) (kind : Kind) :
    new_selem_item w h kind =
      if w.read_errno = 0 ∧ w.alloc_item then some (made_item w h kind) else none := by
  unfold new_selem_item
  split_ifs <;> simp_all [made_item]

theorem add_none (w : World) (s : SndMixer) (h : Nat) (he : SndHctlElem) (hhe : s.helems h = some he)
    (hnone : creates w (decode_name he.id.name).dir = none) :
    ∃ err, add_simple_element w s h = some (err, s) := by
  unfold add_simple_element
  rw [hhe, Option.bind_some]
  dsimp only
  split
  · exact ⟨_, rfl⟩
  · rename_i hinfo
    unfold creates at hnone
    cases htype : item_type (decode_name he.id.name).dir w.type with
    | none => exact ⟨_, rfl⟩
    | some found =>
      obtain ⟨caps, type, kind⟩ := found
      dsimp only
      rw [htype] at hnone
      have hcreate : ¬ (w.read_errno = 0 ∧ w.alloc_item) := by
        intro hcreate
        rw [if_pos ⟨not_not.mp hinfo, hcreate⟩] at hnone
        cases hnone
      rw [new_selem_item_eq, if_neg hcreate]
      exact ⟨_, rfl⟩

theorem creates_some (w : World) (dir : Direction) (caps : BitVec 32) (type : Fin 5) (kind : Kind)
    (hsome : creates w dir = some (caps, type, kind)) :
    w.info_errno = 0 ∧ item_type dir w.type = some (caps, type, kind) ∧
      ∀ h, new_selem_item w h kind = some (made_item w h kind) := by
  unfold creates at hsome
  split at hsome
  · rename_i hok
    obtain ⟨hinfo, hcreate⟩ := hok
    refine ⟨hinfo, hsome, fun h => ?_⟩
    rw [new_selem_item_eq, if_pos hcreate]
  · cases hsome

def with_item (w : World) (s : SndMixer) (h : Nat) (kind : Kind) : SndMixer :=
  { s with items := Function.update s.items s.next (some (made_item w h kind)), next := s.next + 1 }

section Add

variable (w : World) (t : SndMixer) (h : Nat) (he : SndHctlElem) (caps : BitVec 32) (type : Fin 5)
  (kind : Kind) (ht : Filled t (some h)) (hlive : ∀ e ∈ t.pelems, (t.melems e).isSome)
  (hheld : Held t (some h)) (hhe : t.helems h = some he) (hcallback : he.callback)
  (hsome : creates w (decode_name he.id.name).dir = some (caps, type, kind))

include hhe in
theorem add_cap_placed (s : SndMixer) (hs : s.helems = t.helems) (e it : Nat) (elem : SndMixerElem)
    (next alloc : Nat) (pelems : List Nat) :
    { add_cap { s with items := Function.update s.items it (some (made_item w h kind)) } e elem caps type it
        (made_item w h kind) with next, alloc, pelems } =
      placed { s with next, alloc, pelems } h e it he (made_item w h kind)
        (elem.add_cap caps type it w.count) := by
  unfold add_cap placed made_item
  simp [hs, hhe]

include hsome in
/-- With an item that is new the caps are those of the slots as before. -/
theorem hasCaps_added (s : SndMixer) (x : Option Nat) (hs : Filled s x) (e it : Nat) (elem : SndMixerElem)
    (helem : s.melems e = some elem) (hfresh : s.items it = none) (it' : Nat) :
    HasCaps (elem.add_cap caps type it w.count) it' := by
  obtain ⟨-, htype, -⟩ := creates_some w _ caps type kind hsome
  refine hasCaps_add_cap elem _ _ caps type kind it w.count htype (hs.caps e elem · helem) (fun i hslot => ?_) it'
  obtain ⟨item, -, hitem, -⟩ := hs.slot e elem i it helem hslot
  rw [hfresh] at hitem
  cases hitem

include hhe hcallback hsome in
theorem placed_registered (s : SndMixer) (e it : Nat) (elem : SndMixerElem) (hs : Held s (some h))
    (hhelems : s.helems = t.helems) (hhctl : s.hctl = t.hctl)
    (hmelems : ∀ e, (t.melems e).isSome → (s.melems e).isSome) (hkeeps : Keeps h t s)
    (helem : s.melems e = some elem) (hfresh : s.items it = none) (hit : it < s.next)
    (hfree : ∀ i ∈ slots (decode_name he.id.name).dir kind, elem.items i = none) :
    Registered h t (placed s h e it he (made_item w h kind) (elem.add_cap caps type it w.count)) ∧
      (Used s (some e) →
        Used (placed s h e it he (made_item w h kind) (elem.add_cap caps type it w.count)) none) ∧
      (Described s (some e) → FitsWith s elem (decode_name he.id.name).dir kind w.count →
        Described (placed s h e it he (made_item w h kind) (elem.add_cap caps type it w.count)) none) := by
  obtain ⟨-, htype, -⟩ := creates_some w _ caps type kind hsome
  have hhe' : s.helems h = some he := by rw [hhelems, hhe]
  have hitems (i : Fin 5) : (elem.add_cap caps type it w.count).items i =
      if i ∈ slots_of he (made_item w h kind) then some it else elem.items i :=
    add_cap_items elem _ _ caps type kind it w.count htype i
  have hcaps := hasCaps_added w he caps type kind hsome s _ hs.toFilled e it elem helem hfresh
  have hheld := held_placed s h e it he (made_item w h kind) elem _ hhe' hcallback helem hfresh rfl hitems hfree
    hs hit hcaps
  have hkept := keeps_placed s h e it he (made_item w h kind) elem _ helem hfresh hitems hfree
  refine ⟨⟨hhctl, fun h' => ?_, fun e' he' => ?_, hheld, hkeeps.trans _ _ _ _ hkept⟩,
    used_placed s h e it he (made_item w h kind) elem _ hitems, fun hdescribed hfits => ?_⟩
  · unfold placed
    dsimp only
    rcases eq_or_ne h' h with rfl | hne
    · rw [Function.update_self, hhe]
      rfl
    · rw [Function.update_of_ne hne, hhelems]
  · rw [placed_isSome s h e it he (made_item w h kind) elem _ helem]
    exact hmelems e' he'
  · apply described_placed s h e it he (made_item w h kind) elem _ hs.toFilled helem hfresh rfl hitems hdescribed
      (outranks_free s elem _ kind hfree) (spares_free s elem _ kind w.count hfree) _ _ hfits
    · rw [add_cap_caps, item_type_caps _ _ caps type kind htype]
      rfl
    · exact add_cap_channels elem _ _ caps type kind it w.count htype

include ht hlive in
theorem find_elem_place (s : SndMixer) (hs : s.melems = t.melems) (name : List Char) :
    match place t h name type with
    | some e => find_elem s name type t.pelems 0#32 = some (.inl e)
    | none => ∃ index, find_elem s name type t.pelems 0#32 = some (.inr index) := by
  apply find_elem_spec s name type (takes t h name type)
  intro e he
  obtain ⟨elem, helem⟩ := Option.isSome_iff_exists.mp (hlive e he)
  exact ⟨elem, hs ▸ helem, takes_iff t h ht name type e elem helem⟩

include hhe hsome in
theorem add_found (e : Nat) (elem : SndMixerElem) (helem : t.melems e = some elem)
    (hfind : find_elem (with_item w t h kind) (decode_name he.id.name).name type t.pelems 0#32 =
      some (.inl e)) :
    add_simple_element w t h =
      some (0, add_cap (with_item w t h kind) e elem caps type t.next (made_item w h kind)) := by
  obtain ⟨hinfo, htype, hitem⟩ := creates_some w _ caps type kind hsome
  unfold with_item at hfind
  unfold add_simple_element
  simp only [hhe, hinfo, htype, hitem, hfind, helem, Option.bind_some, Option.map_some, ne_eq,
    not_true_eq_false, if_false]
  rfl

include hhe hsome in
theorem add_not_found (index : BitVec 32)
    (hfind : find_elem (with_item w t h kind) (decode_name he.id.name).name type t.pelems 0#32 =
      some (.inr index)) :
    add_simple_element w t h =
      if ¬ w.alloc_elem then
        some (-ENOMEM, { with_item w t h kind with items := Function.update (with_item w t h kind).items t.next none })
      else
        some (add_mixer_elem w
          (add_cap { with_item w t h kind with next := t.next + 2 } (t.next + 1)
            (new_mixer_elem (decode_name he.id.name).name index) caps type t.next (made_item w h kind))
          (t.next + 1)) := by
  obtain ⟨hinfo, htype, hitem⟩ := creates_some w _ caps type kind hsome
  unfold with_item at hfind
  unfold add_simple_element
  simp only [hhe, hinfo, htype, hitem, hfind, Option.bind_some, ne_eq, not_true_eq_false, if_false]
  rfl

include ht hlive hhe hsome in
/-- The first mixer element that takes the item gets it. -/
theorem add_taken (e : Nat) (hplace : place t h (decode_name he.id.name).name type = some e) :
    ∃ elem, t.melems e = some elem ∧ elem.items type = none ∧
      add_simple_element w t h = some (0, placed { t with next := t.next + 1 } h e t.next he (made_item w h kind)
        (elem.add_cap caps type t.next w.count)) := by
  obtain ⟨elem, helem⟩ := Option.isSome_iff_exists.mp (hlive e (List.mem_of_find?_eq_some hplace))
  obtain ⟨-, hslot⟩ := (takes_iff t h ht _ type e elem helem).mp (List.find?_some hplace)
  have hfind := find_elem_place t h type ht hlive (with_item w t h kind) rfl (decode_name he.id.name).name
  rw [hplace] at hfind
  refine ⟨elem, helem, hslot, ?_⟩
  rw [add_found w t h he caps type kind hhe hsome e elem helem hfind]
  exact congrArg (fun s => some (0, s))
    (add_cap_placed w t h he caps type kind hhe t rfl e t.next elem (t.next + 1) t.alloc t.pelems)

include ht hlive hhe hsome in
/-- Without one, a new mixer element gets the item, which is listed where there is room. -/
theorem add_made (hplace : place t h (decode_name he.id.name).name type = none) (halloc : w.alloc_elem) :
    ∃ err index pelems alloc, (¬ has_room w t ∧ pelems = t.pelems ∨ pelems.Perm (t.pelems ++ [t.next + 1])) ∧
      add_simple_element w t h = some (err,
        placed (extended t (t.next + 1) (new_mixer_elem (decode_name he.id.name).name index) pelems alloc (t.next + 2))
          h (t.next + 1) t.next he (made_item w h kind)
          ((new_mixer_elem (decode_name he.id.name).name index).add_cap caps type t.next w.count)) := by
  have hfind := find_elem_place t h type ht hlive (with_item w t h kind) rfl (decode_name he.id.name).name
  rw [hplace] at hfind
  obtain ⟨index, hfind⟩ := hfind
  have hadd := add_not_found w t h he caps type kind hhe hsome index hfind
  rw [if_neg (not_not_intro halloc)] at hadd
  have hstate (pelems : List Nat) (alloc : Nat) :
      { add_cap { with_item w t h kind with next := t.next + 2 } (t.next + 1)
          (new_mixer_elem (decode_name he.id.name).name index) caps type t.next (made_item w h kind) with
        pelems, alloc } =
      placed (extended t (t.next + 1) (new_mixer_elem (decode_name he.id.name).name index) pelems alloc (t.next + 2))
        h (t.next + 1) t.next he (made_item w h kind)
        ((new_mixer_elem (decode_name he.id.name).name index).add_cap caps type t.next w.count) := by
    refine (add_cap_placed w t h he caps type kind hhe t rfl (t.next + 1) t.next _ (t.next + 2) alloc pelems).trans ?_
    unfold placed extended
    simp
  unfold add_mixer_elem at hadd
  split at hadd
  · rename_i hfull
    have hnone : ¬ has_room w t := fun hroom => hfull.2 (hroom hfull.1)
    refine ⟨-ENOMEM, index, t.pelems, t.alloc, .inl ⟨hnone, rfl⟩, hadd.trans ?_⟩
    exact congrArg (fun s => some (-ENOMEM, s)) (hstate t.pelems t.alloc)
  · refine ⟨w.throw_event, index, w.compare.qsort (t.pelems ++ [t.next + 1]),
      if t.pelems.length = t.alloc then t.alloc + 32 else t.alloc, .inr (w.compare.perm _), hadd.trans ?_⟩
    exact congrArg (fun s => some (w.throw_event, s)) (hstate _ _)

include hheld hhe hcallback hsome in
theorem add_existing (e : Nat) (hplace : place t h (decode_name he.id.name).name type = some e)
    (hnext : ∀ elem, t.melems e = some elem → is_global caps → elem.items (type + 1) = none) :
    ∃ t', add_simple_element w t h = some (0, t') ∧ Registered h t t' ∧ (Used t (some e) → Used t' none) ∧
      (Described t (some e) →
        (∀ elem, t.melems e = some elem → FitsWith t elem (decode_name he.id.name).dir kind w.count) →
        Described t' none) := by
  obtain ⟨-, htype, -⟩ := creates_some w _ caps type kind hsome
  obtain ⟨elem, helem, hslot, hadd⟩ :=
    add_taken w t h he caps type kind hheld.toFilled (fun e => (hheld.pelems e).mp) hhe hsome e hplace
  have hnext_held : Held { t with next := t.next + 1 } (some h) :=
    hheld.congr t _ _ rfl rfl rfl (.refl _) (Nat.le_succ _)
  have hfree := slots_free elem _ _ caps type kind htype hslot (hnext elem helem)
  obtain ⟨hregistered, hused, hdescribed⟩ := placed_registered w t h he caps type kind hhe hcallback hsome
    _ e t.next elem hnext_held rfl rfl (fun _ h => h) (Keeps.refl h t) helem ((hheld.fresh _ (le_refl _)).2.2)
    (Nat.lt_succ_self _) hfree
  refine ⟨_, hadd, hregistered, hused, fun hother hfits => hdescribed ?_ (hfits elem helem)⟩
  exact hother.congr t _ _ rfl rfl rfl

include ht hlive hhe hsome in
theorem add_unplaced (hplace : place t h (decode_name he.id.name).name type = none)
    (halloc : ¬ w.alloc_elem) :
    add_simple_element w t h = some (-ENOMEM, { t with next := t.next + 1 }) := by
  have hfind := find_elem_place t h type ht hlive (with_item w t h kind) rfl (decode_name he.id.name).name
  rw [hplace] at hfind
  obtain ⟨index, hfind⟩ := hfind
  rw [add_not_found w t h he caps type kind hhe hsome index hfind, if_pos halloc]
  unfold with_item
  dsimp only
  rw [Function.update_idem, Function.update_eq_self_iff.mpr (ht.fresh _ (le_refl _)).2.2.symm]

include hheld hhe hcallback hsome in
theorem add_new (hplace : place t h (decode_name he.id.name).name type = none) (halloc : w.alloc_elem)
    (hroom : has_room w t) :
    ∃ err t', add_simple_element w t h = some (err, t') ∧ Registered h t t' ∧ (Used t none → Used t' none) ∧
      (Described t none → Described t' none) := by
  obtain ⟨err, index, pelems, alloc, hlist, hadd⟩ :=
    add_made w t h he caps type kind hheld.toFilled (fun e => (hheld.pelems e).mp) hhe hsome hplace halloc
  have hperm := hlist.resolve_left fun hnone => hnone.1 hroom
  set elem := new_mixer_elem (decode_name he.id.name).name index
  have hempty (i : Fin 5) : elem.items i = none := rfl
  have hfresh : t.melems (t.next + 1) = none := (hheld.fresh _ (Nat.le_succ _)).2.1
  have hextended := held_extended t (some h) (t.next + 1) elem pelems alloc (t.next + 2) hempty hfresh hheld hperm
    (Nat.lt_succ_self _) (Nat.le_add_right _ 2)
  obtain ⟨hregistered, hused, hdescribed⟩ := placed_registered w t h he caps type kind hhe hcallback hsome
    (extended t (t.next + 1) elem pelems alloc (t.next + 2)) (t.next + 1) t.next elem hextended rfl rfl
    (fun e hsome => by
      rwa [extended_old]
      rintro rfl
      rw [hfresh] at hsome
      cases hsome)
    (keeps_extended t _ elem pelems alloc _ hfresh h) (Function.update_self _ _ _)
    ((hheld.fresh _ (le_refl _)).2.2) (by show t.next < t.next + 2; omega) (fun i _ => hempty i)
  refine ⟨err, _, hadd, hregistered, fun h => hused (used_extended t _ elem pelems alloc _ h),
    fun h => hdescribed (described_extended t _ elem pelems alloc _ h) ?_⟩
  exact (fitting_empty _ elem rfl (fun _ => rfl) hempty).with _ elem _ kind w.count

end Add

end Salsa.Mixer
