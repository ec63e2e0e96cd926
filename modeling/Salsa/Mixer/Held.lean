import Salsa.Mixer.Elems
import Mathlib.Tactic.Common

/-!
# Who holds which item

The slots that a control fills, and the invariant that ties controls, items and mixer elements
together.
-/

namespace Salsa.Mixer

open Ctl

/-! ## Slots -/

/-- The slots for an item: both directions for a global control. -/
def slots (dir : Direction) : Kind → List (Fin 5)
  | .volume =>
    match dir with
    | .playback => [SND_SELEM_ITEM_PVOLUME]
    | .capture => [SND_SELEM_ITEM_CVOLUME]
    | .global => [SND_SELEM_ITEM_PVOLUME, SND_SELEM_ITEM_CVOLUME]
  | .switch =>
    match dir with
    | .playback => [SND_SELEM_ITEM_PSWITCH]
    | .capture => [SND_SELEM_ITEM_CSWITCH]
    | .global => [SND_SELEM_ITEM_PSWITCH, SND_SELEM_ITEM_CSWITCH]
  | .enum => [SND_SELEM_ITEM_ENUM]

def slots_of (he : SndHctlElem) (item : SndSelemItem) : List (Fin 5) :=
  slots (decode_name he.id.name).dir item.kind

def is_item_of (s : SndMixer) (h : Nat) (slot : Option Nat) : Bool :=
  (slot.bind s.items).any fun item => item.helem == h

theorem is_item_of_iff (s : SndMixer) (h : Nat) (slot : Option Nat) :
    is_item_of s h slot ↔ ∃ it item, slot = some it ∧ s.items it = some item ∧ item.helem = h := by
  simp only [is_item_of, Option.any_eq_true, Option.bind_eq_some_iff, beq_iff_eq]
  constructor
  · rintro ⟨item, ⟨it, hslot, hitem⟩, hof⟩
    exact ⟨it, item, hslot, hitem, hof⟩
  · rintro ⟨it, item, hslot, hitem, hof⟩
    exact ⟨item, ⟨it, hslot, hitem⟩, hof⟩

/-- Two slots are only filled by a global volume or switch. -/
theorem slots_two (dir : Direction) (kind : Kind) (i j : Fin 5) (hi : i ∈ slots dir kind)
    (hj : j ∈ slots dir kind) (hij : i < j) :
    i = SND_SELEM_ITEM_PVOLUME ∧ j = SND_SELEM_ITEM_CVOLUME ∨
      i = SND_SELEM_ITEM_PSWITCH ∧ j = SND_SELEM_ITEM_CSWITCH := by
  revert i j
  cases dir <;> cases kind <;> decide

theorem item_type_slots (dir : Direction) (type : CtlType) (caps : BitVec 32) (first : Fin 5)
    (kind : Kind) (h : item_type dir type = some (caps, first, kind)) :
    slots dir kind =
      if first ≠ SND_SELEM_ITEM_ENUM ∧ is_global caps then [first, first + 1] else [first] := by
  cases type <;> cases dir <;> cases h <;> rfl

theorem item_type_gvolume (dir : Direction) (type : CtlType) (caps : BitVec 32) (first : Fin 5)
    (kind : Kind) (h : item_type dir type = some (caps, first, kind))
    (hp : SND_SELEM_ITEM_PVOLUME ∈ slots dir kind) (hc : SND_SELEM_ITEM_CVOLUME ∈ slots dir kind) :
    caps &&& SND_SM_CAP_GVOLUME ≠ 0#32 := by
  revert hp hc
  cases type <;> cases dir <;> cases h <;> decide

theorem item_type_gswitch (dir : Direction) (type : CtlType) (caps : BitVec 32) (first : Fin 5)
    (kind : Kind) (h : item_type dir type = some (caps, first, kind))
    (hp : SND_SELEM_ITEM_PSWITCH ∈ slots dir kind) (hc : SND_SELEM_ITEM_CSWITCH ∈ slots dir kind) :
    caps &&& SND_SM_CAP_GSWITCH ≠ 0#32 := by
  revert hp hc
  cases type <;> cases dir <;> cases h <;> decide

/-! ## The invariant -/

/-- An item in the slots of both directions is a global one, as the caps say. -/
def HasCaps (elem : SndMixerElem) (it : Nat) : Prop :=
  (elem.items SND_SELEM_ITEM_PVOLUME = some it → elem.items SND_SELEM_ITEM_CVOLUME = some it →
    elem.caps &&& SND_SM_CAP_GVOLUME ≠ 0#32) ∧
  (elem.items SND_SELEM_ITEM_PSWITCH = some it → elem.items SND_SELEM_ITEM_CSWITCH = some it →
    elem.caps &&& SND_SM_CAP_GSWITCH ≠ 0#32)

/-- Every slot holds the item of a registered control; the control `x`, if there is one, has none. -/
structure Filled (s : SndMixer) (x : Option Nat) : Prop where
  fresh : ∀ n, s.next ≤ n → s.helems n = none ∧ s.melems n = none ∧ s.items n = none
  callback : ∀ h he e, s.helems h = some he → he.private_data = some e → he.callback
  slot : ∀ e elem i it, s.melems e = some elem → elem.items i = some it →
    ∃ item he, s.items it = some item ∧ s.helems item.helem = some he ∧ he.private_data = some e ∧
      i ∈ slots_of he item
  item : ∀ it item, s.items it = some item → some item.helem ≠ x ∧
    ∃ he, s.helems item.helem = some he ∧ he.private_data.isSome
  unique : ∀ it it' item item', s.items it = some item → s.items it' = some item' →
    item.helem = item'.helem → it = it'
  caps : ∀ e elem it, s.melems e = some elem → HasCaps elem it

/-- Every registered control but `x` has its item in its slots. -/
def Owning (s : SndMixer) (x : Option Nat) : Prop :=
  ∀ h he e, s.helems h = some he → he.private_data = some e → some h ≠ x →
    ∃ elem it item, s.melems e = some elem ∧ s.items it = some item ∧ item.helem = h ∧
      ∀ i ∈ slots_of he item, elem.items i = some it

/-- Every slot holds the item of a registered control, and every registered control has its item
in its slots; the control `x`, if there is one, has none. -/
structure Held (s : SndMixer) (x : Option Nat) : Prop extends Filled s x where
  pelems_nodup : s.pelems.Nodup
  pelems : ∀ e, e ∈ s.pelems ↔ (s.melems e).isSome
  owner : Owning s x

/-- An item in a slot of a mixer element is in all the slots it should be in there. -/
def Whole (s : SndMixer) : Prop :=
  ∀ e elem i it item he, s.melems e = some elem → elem.items i = some it → s.items it = some item →
    s.helems item.helem = some he → ∀ j ∈ slots_of he item, elem.items j = some it

/-- Every mixer element but `y` has an item. -/
def Used (s : SndMixer) (y : Option Nat) : Prop :=
  ∀ e elem, s.melems e = some elem → some e ≠ y → ∃ i, (elem.items i).isSome

structure Inv (s : SndMixer) : Prop where
  hctl_nodup : s.hctl.Nodup
  hctl : ∀ h, h ∈ s.hctl ↔ (s.helems h).isSome
  held : Held s none
  used : Used s none

theorem Filled.congr (s t : SndMixer) (x : Option Nat) (hs : Filled s x) (hhelems : t.helems = s.helems)
    (hmelems : t.melems = s.melems) (hitems : t.items = s.items) (hnext : s.next ≤ t.next) : Filled t x := by
  refine { fresh := ?_, callback := ?_, slot := ?_, item := ?_, unique := ?_, caps := ?_ }
  · intro n hn
    rw [hhelems, hmelems, hitems]
    exact hs.fresh n (hnext.trans hn)
  all_goals simp only [hhelems, hmelems, hitems]
  · exact hs.callback
  · exact hs.slot
  · exact hs.item
  · exact hs.unique
  · exact hs.caps

theorem Held.congr (s t : SndMixer) (x : Option Nat) (hs : Held s x) (hhelems : t.helems = s.helems)
    (hmelems : t.melems = s.melems) (hitems : t.items = s.items) (hpelems : t.pelems.Perm s.pelems)
    (hnext : s.next ≤ t.next) : Held t x := by
  refine
    { hs.toFilled.congr s t x hhelems hmelems hitems hnext with
      pelems_nodup := hpelems.nodup_iff.mpr hs.pelems_nodup, pelems := ?_, owner := ?_ }
  · intro e
    rw [hpelems.mem_iff, hmelems]
    exact hs.pelems e
  · unfold Owning
    rw [hhelems, hmelems, hitems]
    exact hs.owner

/-- The items of all controls but `h` stay in their slots. -/
def Keeps (h : Nat) (s s' : SndMixer) : Prop :=
  ∀ e elem i it item, s.melems e = some elem → elem.items i = some it → s.items it = some item →
    item.helem ≠ h →
    ∃ elem' item', s'.melems e = some elem' ∧ elem'.items i = some it ∧ s'.items it = some item' ∧
      item'.helem = item.helem

theorem Keeps.refl (h : Nat) (s : SndMixer) : Keeps h s s := fun _ elem _ _ item helem hslot hitem _ =>
  ⟨elem, item, helem, hslot, hitem, rfl⟩

theorem Keeps.trans (h : Nat) (s t u : SndMixer) (hst : Keeps h s t) (htu : Keeps h t u) : Keeps h s u := by
  intro e elem i it item helem hslot hitem hne
  obtain ⟨elem', item', helem', hslot', hitem', heq⟩ := hst e elem i it item helem hslot hitem hne
  obtain ⟨elem'', item'', helem'', hslot'', hitem'', heq'⟩ :=
    htu e elem' i it item' helem' hslot' hitem' (heq ▸ hne)
  exact ⟨elem'', item'', helem'', hslot'', hitem'', heq'.trans heq⟩

theorem Filled.slot_iff (s : SndMixer) (x : Option Nat) (hs : Filled s x) (hwhole : Whole s) (e : Nat)
    (elem : SndMixerElem) (i : Fin 5) (it : Nat) (helem : s.melems e = some elem)
    (hslot : elem.items i = some it) :
    ∃ item he, s.items it = some item ∧ s.helems item.helem = some he ∧ he.private_data = some e ∧
      ∀ j, elem.items j = some it ↔ j ∈ slots_of he item := by
  obtain ⟨item, he, hitem, hhe, hdata, -⟩ := hs.slot e elem i it helem hslot
  refine ⟨item, he, hitem, hhe, hdata, fun j => ⟨fun hj => ?_, ?_⟩⟩
  · obtain ⟨item', he', hitem', hhe', -, hmem⟩ := hs.slot e elem j it helem hj
    obtain rfl := Option.some.inj (hitem.symm.trans hitem')
    obtain rfl := Option.some.inj (hhe.symm.trans hhe')
    exact hmem
  · exact hwhole e elem i it item he helem hslot hitem hhe j

theorem Held.whole (s : SndMixer) (hs : Held s none) : Whole s := by
  intro e elem i it item he helem hslot hitem hhe j hj
  obtain ⟨item', he', hitem', hhe', hdata, -⟩ := hs.slot e elem i it helem hslot
  obtain rfl := Option.some.inj (hitem.symm.trans hitem')
  obtain rfl := Option.some.inj (hhe.symm.trans hhe')
  obtain ⟨elem', it', own, helem', hown, hof, hheld⟩ := hs.owner item.helem he e hhe hdata (by simp)
  obtain rfl := Option.some.inj (helem.symm.trans helem')
  obtain rfl : it' = it := hs.unique it' it own item hown hitem hof
  obtain rfl := Option.some.inj (hitem.symm.trans hown)
  exact hheld j hj

theorem Held.is_item_of_iff (s : SndMixer) (x : Option Nat) (hs : Held s x) (h e : Nat)
    (he : SndHctlElem) (hhe : s.helems h = some he) (hdata : he.private_data = some e)
    (hx : some h ≠ x) :
    ∃ elem it item, s.melems e = some elem ∧ s.items it = some item ∧ item.helem = h ∧
      (∀ i ∈ slots_of he item, elem.items i = some it) ∧
      ∀ i, is_item_of s h (elem.items i) ↔ i ∈ slots_of he item := by
  obtain ⟨elem, it, item, helem, hitem, hof, hslots⟩ := hs.owner h he e hhe hdata hx
  refine ⟨elem, it, item, helem, hitem, hof, hslots, fun i => ?_⟩
  rw [Mixer.is_item_of_iff]
  constructor
  · rintro ⟨it', item', hslot, hitem', hof'⟩
    obtain rfl : it' = it := hs.unique it' it item' item hitem' hitem (hof'.trans hof.symm)
    obtain ⟨item'', he', hitem'', hhe', -, hmem⟩ := hs.slot e elem i it' helem hslot
    obtain rfl : item'' = item := Option.some.inj (hitem''.symm.trans hitem)
    obtain rfl : he' = he := Option.some.inj (hhe'.symm.trans (hof ▸ hhe))
    exact hmem
  · intro hi
    exact ⟨it, item, hslots i hi, hitem, hof⟩

theorem Held.not_is_item_of (s : SndMixer) (x : Option Nat) (hs : Held s x) (h e : Nat)
    (elem : SndMixerElem) (he : SndHctlElem) (hhe : s.helems h = some he)
    (hdata : he.private_data ≠ some e) (helem : s.melems e = some elem) (i : Fin 5) :
    is_item_of s h (elem.items i) = false := by
  rw [Bool.eq_false_iff]
  intro hof
  obtain ⟨it, item, hslot, hitem, rfl⟩ := (Mixer.is_item_of_iff _ _ _).mp hof
  obtain ⟨item', he', hitem', hhe', hdata', -⟩ := hs.slot e elem i it helem hslot
  obtain rfl : item' = item := Option.some.inj (hitem'.symm.trans hitem)
  obtain rfl : he' = he := Option.some.inj (hhe'.symm.trans hhe)
  exact hdata hdata'

end Salsa.Mixer
